import RpcFramework.Network.TimerInvariant

/-!
# Cancelling a timer

The flag of a task is looked at when the task is collected, not when its callback is
started.  A cancel therefore comes too late for a task that waits in the batch of a pass
in flight, and for these tasks only: a task in the heap is dropped by the pass that
collects it, and a task whose callback is running goes back to the heap with its flag set.
-/

namespace RpcFramework.TimerQueue

open StepRun

/-- The callback of the registration may be started later: its task waits in a pass, or it
is not cancelled and will be collected. -/
def Live (s : TimerQueue) (serial : Nat) : Prop :=
  ∃ entry ∈ s.held, entry.task.serial = serial ∧
    ((∃ now, entry.place = .waiting now) ∨ s.flags serial = false ∧ entry.Tracked)

/-- The task of the registration waits in a pass. -/
def Waits (s : TimerQueue) (serial : Nat) : Prop :=
  ∃ entry ∈ s.held, entry.task.serial = serial ∧ ∃ now, entry.place = .waiting now

section Steps

variable {s next : TimerQueue} {event : Event} {serial : Nat} {gone came : List Entry}

/-! ## What is dead stays dead -/

/-- A flag that has been set stays set. -/
theorem Move.unset_before (move : Move s event next gone came) (known : serial < s.registered)
    (unset : next.flags serial = false) : s.flags serial = false := by
  rcases move.flags_cases with ⟨now, delay, interval, rfl⟩ | ⟨id, _, rfl⟩ | same
  · exact (Function.update_of_ne (Nat.ne_of_lt known) ..).symm.trans unset
  · apply Bool.eq_false_of_not_eq_true
    intro set
    rw [(s.cancelTimer_flags id serial).mpr (.inl set)] at unset
    cases unset
  · rwa [same] at unset

/-- No step brings a registration back. -/
theorem live_before (wf : WellFormed s) (known : serial < s.registered)
    (taken : step s event = some next) (live : Live next serial) : Live s serial := by
  obtain ⟨gone, came, move, _⟩ := step_moves taken
  obtain ⟨entry, member, own, way⟩ := live
  cases wf.stems taken known member own with
  | stays held =>
      refine ⟨entry, held, own, ?_⟩
      exact way.imp_right fun open_way => ⟨move.unset_before known open_way.1, open_way.2⟩
  | collected now task stored due clock runs unset =>
      exact ⟨_, stored, own, .inr ⟨own ▸ unset, .inl rfl⟩⟩
  | started now task waiting => exact ⟨_, waiting, own, .inl ⟨now, rfl⟩⟩
  | renewed task running periodic =>
      rcases way with ⟨now, place⟩ | ⟨unset, _⟩
      · cases place
      · exact ⟨_, running, own, .inr ⟨move.unset_before known unset, .inr periodic⟩⟩

/-- The registration is dead, and its callback has been started as often as listed. -/
structure Dead (serial : Nat) (starts : List Int) (s : TimerQueue) : Prop where
  wellFormed : WellFormed s
  known : serial < s.registered
  dead : ¬ Live s serial
  starts : s.runsOf serial = starts

theorem Dead.run {starts : List Int} {later : List Event} {final : TimerQueue}
    (dead : Dead serial starts s) (reached : run? step s later = some final) :
    Dead serial starts final := by
  refine run?_invariant ?_ dead reached
  intro s event next dead taken
  obtain ⟨gone, came, move, rest, before, _⟩ := step_moves taken
  have still : ∀ now task, Entry.mk (.waiting now) task ∈ s.held → task.serial ≠ serial :=
    fun now task waiting own => dead.dead ⟨_, waiting, own, .inl ⟨now, rfl⟩⟩
  exact ⟨dead.wellFormed.step taken, Nat.lt_of_lt_of_le dead.known (registered_le taken),
    fun live => dead.dead (live_before dead.wellFormed dead.known taken live),
    (move.runsOf_eq before still).trans dead.starts⟩

/-! ## What is live can be started -/

theorem Move.unset_behind (move : Move s event next gone came)
    (calm : ∀ id, event ≠ .cancelTimer id) (unset : s.flags serial = false) :
    next.flags serial = false := by
  rcases move.flags_cases with ⟨now, delay, interval, rfl⟩ | ⟨id, called, _⟩ | same
  · by_cases new : serial = s.registered
    · rw [new]
      exact Function.update_self ..
    · exact (Function.update_of_ne new ..).trans unset
  · exact absurd called (calm id)
  · rwa [same]

theorem runsOf_length_le (taken : step s event = some next) :
    (s.runsOf serial).length ≤ (next.runsOf serial).length := by
  obtain ⟨gone, came, move, _⟩ := step_moves taken
  rcases move.runs_cases with same | ⟨now, task, _, more⟩
  · rw [runsOf_of_runs same]
  · rw [runsOf_of_started more, List.length_append]
    exact Nat.le_add_right ..

theorem runsOf_length_le_run {events : List Event} {final : TimerQueue}
    (reached : run? step s events = some final) :
    (s.runsOf serial).length ≤ (final.runsOf serial).length := by
  have kept : ∀ (middle : TimerQueue) event next,
      (s.runsOf serial).length ≤ (middle.runsOf serial).length →
      step middle event = some next → (s.runsOf serial).length ≤ (next.runsOf serial).length :=
    fun middle event next before taken => before.trans (runsOf_length_le taken)
  exact run?_invariant kept (Nat.le_refl _) reached

theorem runsOf_length_lt {now : Int} {task : TimerTask}
    (runs : next.runs = s.runs ++ [(task.serial, now)]) (own : task.serial = serial) :
    (s.runsOf serial).length < (next.runsOf serial).length := by
  rw [runsOf_of_started runs, if_pos own, List.length_append]
  exact Nat.lt_succ_self _

/-- A task that waits goes on waiting until it is started. -/
theorem waits_behind (taken : step s event = some next) (waits : Waits s serial) :
    (s.runsOf serial).length < (next.runsOf serial).length ∨ Waits next serial := by
  obtain ⟨entry, member, own, now, place⟩ := waits
  cases step_fate taken member with
  | stays held => exact .inr ⟨entry, held, own, now, place⟩
  | collected now stored kept =>
      rw [stored] at place
      cases place
  | started now waiting runs held => exact .inl (runsOf_length_lt runs own)
  | finished running flags kept =>
      rw [running] at place
      cases place

/-- Without a cancel, a live registration stays live until it is started. -/
theorem live_behind (calm : ∀ id, event ≠ .cancelTimer id) (taken : step s event = some next)
    (live : Live s serial) :
    (s.runsOf serial).length < (next.runsOf serial).length ∨ Live next serial := by
  obtain ⟨entry, member, own, way⟩ := live
  cases step_fate taken member with
  | stays held =>
      obtain ⟨gone, came, move, _⟩ := step_moves taken
      refine .inr ⟨entry, held, own, ?_⟩
      exact way.imp_right fun open_way => ⟨move.unset_behind calm open_way.1, open_way.2⟩
  | collected now stored kept =>
      rcases way with ⟨_, place⟩ | ⟨unset, _⟩
      · rw [stored] at place
        cases place
      · rw [own] at kept
        exact .inr ⟨_, kept unset, own, .inl ⟨now, rfl⟩⟩
  | started now waiting runs held => exact .inl (runsOf_length_lt runs own)
  | finished running flags kept =>
      rcases way with ⟨_, place⟩ | ⟨unset, stored | periodic⟩
      · rw [running] at place
        cases place
      · rw [running] at stored
        cases stored
      · rw [← flags] at unset
        exact .inr ⟨_, kept periodic, own, .inr ⟨unset, .inl rfl⟩⟩

end Steps

/-! ## Driving the passes to their end -/

/-- What the innermost pass does next when its callbacks do nothing. -/
def forced (s : TimerQueue) : Event :=
  match s.passes with
  | ⟨_, some _, _⟩ :: _ => .finish false
  | ⟨_, none, _ :: _⟩ :: _ => .start
  | _ => .endPass

def Pass.left (pass : Pass) : Nat :=
  2 * pass.expiredTasks.length + pass.running.toList.length + 1

/-- The steps that are left in the passes in flight. -/
def left (s : TimerQueue) : Nat := (s.passes.map Pass.left).sum

section Drive

variable {s : TimerQueue} {serial : Nat}

theorem forced_calm (s : TimerQueue) (id : UInt64) : s.forced ≠ .cancelTimer id := by
  rw [forced]
  split
  · exact Event.noConfusion
  · exact Event.noConfusion
  · exact Event.noConfusion

theorem forced_step (busy : s.passes ≠ []) :
    ∃ next, step s s.forced = some next ∧ next.left < s.left := by
  obtain ⟨⟨now, running, expired⟩, outer, stack⟩ := List.exists_cons_of_ne_nil busy
  rw [forced, stack, left, stack]
  cases running with
  | some task =>
      dsimp only
      rw [step, finish?, stack]
      dsimp only
      split
      · refine ⟨_, rfl, ?_⟩
        simp [left, Pass.left]
      · refine ⟨_, rfl, ?_⟩
        simp [left, Pass.left]
  | none =>
      cases expired with
      | cons task rest =>
          dsimp only
          rw [step, start?, stack]
          refine ⟨_, rfl, ?_⟩
          simp [left, Pass.left]
          omega
      | nil =>
          dsimp only
          rw [step, endPass?, stack]
          refine ⟨_, rfl, ?_⟩
          simp [left, Pass.left]

/-- Drive the passes to their end: what every forced step keeps is there at the end, unless
the callback of the registration has been started before. -/
theorem exists_idle {Kept : TimerQueue → Prop}
    (kept : ∀ s next, Kept s → step s s.forced = some next →
      (s.runsOf serial).length < (next.runsOf serial).length ∨ Kept next)
    (start : Kept s) :
    ∃ later final, run? step s later = some final ∧
      ((s.runsOf serial).length < (final.runsOf serial).length ∨
        final.passes = [] ∧ Kept final) := by
  have progress : ∀ middle : TimerQueue,
      (s.runsOf serial).length < (middle.runsOf serial).length ∨
          (s.runsOf serial).length ≤ (middle.runsOf serial).length ∧ Kept middle →
        ((s.runsOf serial).length < (middle.runsOf serial).length ∨
            middle.passes = [] ∧ Kept middle) ∨
          ∃ event next, step middle event = some next ∧
            ((s.runsOf serial).length < (next.runsOf serial).length ∨
              (s.runsOf serial).length ≤ (next.runsOf serial).length ∧ Kept next) ∧
            next.left < middle.left := by
    rintro middle (started | ⟨before, holds⟩)
    · exact .inl (.inl started)
    · by_cases idle : middle.passes = []
      · exact .inl (.inr ⟨idle, holds⟩)
      · obtain ⟨next, taken, less⟩ := forced_step idle
        refine .inr ⟨_, next, taken, ?_, less⟩
        rcases kept middle next holds taken with more | still
        · exact .inl (Nat.lt_of_le_of_lt before more)
        · exact .inr ⟨before.trans (runsOf_length_le taken), still⟩
  exact exists_run_to left progress (.inr ⟨Nat.le_refl _, start⟩)

/-- A task that waits can be started. -/
theorem exists_start_of_waits (waits : Waits s serial) :
    ∃ later final, run? step s later = some final ∧
      (s.runsOf serial).length < (final.runsOf serial).length := by
  obtain ⟨later, final, reached, started | ⟨idle, entry, member, _, now, place⟩⟩ :=
    exists_idle (fun s next waits taken => waits_behind taken waits) waits
  · exact ⟨later, final, reached, started⟩
  · rw [held_idle idle] at member
    obtain ⟨task, _, rfl⟩ := List.mem_map.mp member
    cases place

/-- A pass at a late time collects the task of a live registration. -/
theorem exists_collect (bounded : Bounded s) (idle : s.passes = []) (live : Live s serial) :
    ∃ event next, step s event = some next ∧ Waits next serial ∧
      next.runsOf serial = s.runsOf serial := by
  obtain ⟨entry, member, own, way⟩ := live
  rw [held_idle idle] at member
  obtain ⟨task, stored, rfl⟩ := List.mem_map.mp member
  rcases way with ⟨_, place⟩ | ⟨unset, _⟩
  · cases place
  obtain ⟨now, reads, due⟩ : ∃ now, s.Reads now ∧ task.nextRun ≤ now := by
    refine ⟨max s.clock task.nextRun, ⟨le_max_left .., ?_⟩, le_max_right ..⟩
    exact max_lt bounded.clock (bounded.nextRun task stored)
  obtain ⟨order, left, drained⟩ := PriorityQueue.exists_drain TimerTask.nextRun now s.timers
  have popped : task ∈ order := by
    rcases List.mem_append.mp ((PriorityQueue.drain?_perm drained).mem_iff.mp stored) with
      inside | behind
    · exact inside
    · exact absurd (PriorityQueue.drain?_left drained behind) (not_lt.mpr due)
  have kept : task ∈ order.filter fun task => !s.flags task.serial :=
    List.mem_filter.mpr ⟨popped, by rw [own, unset]; rfl⟩
  have control : s.inControl = true := by rw [inControl, idle]
  refine ⟨.processTimers now order, s.collected now order left, ?_, ?_, rfl⟩
  · rw [step, if_pos ⟨control, reads⟩, processTimers?, drained]
  · refine ⟨⟨.waiting now, task⟩, ?_, own, now, rfl⟩
    rw [held_collected]
    exact List.mem_append_right _ (List.mem_append_left _ (List.mem_map_of_mem kept))

/-- A live registration can be started. -/
theorem exists_start_of_live (bounded : Bounded s) (live : Live s serial) :
    ∃ later final, run? step s later = some final ∧
      (s.runsOf serial).length < (final.runsOf serial).length := by
  obtain ⟨first, idle, reached, started | ⟨empty, live⟩⟩ :=
    exists_idle (fun s next live taken => live_behind s.forced_calm taken live) live
  · exact ⟨first, idle, reached, started⟩
  · obtain ⟨event, next, taken, waits, same⟩ :=
      exists_collect (bounded.run reached) empty live
    obtain ⟨later, final, tail, started⟩ := exists_start_of_waits waits
    have through := run?_append reached (run?_cons_eq_some.mpr ⟨next, taken, tail⟩)
    refine ⟨_, final, through, ?_⟩
    rw [same] at started
    exact Nat.lt_of_le_of_lt (runsOf_length_le_run reached) started

end Drive

/-! ## When a cancel is final -/

/-- No task with the id waits in the batch of a pass. -/
def NoneWaiting (s : TimerQueue) (id : UInt64) : Prop :=
  ∀ entry ∈ s.held, ∀ now, entry.place = .waiting now → entry.task.id ≠ id

/-- Every task with the id that would be collected later is cancelled already, or its flag
is the one that `timerFlags` has under the id. -/
def Reaches (s : TimerQueue) (id : UInt64) : Prop :=
  ∀ entry ∈ s.held, entry.task.id = id → entry.Tracked →
    s.flags entry.task.serial = true ∨ s.timerFlags id = some entry.task.serial

section Final

variable {s : TimerQueue}

/-- After the cancel, the registrations with the id are dead. -/
theorem dead_iff (wf : WellFormed s) (id : UInt64) :
    (∀ serial < s.registered, idOf serial = id → ¬ Live (s.cancelTimer id) serial) ↔
      NoneWaiting s id ∧ Reaches s id := by
  constructor
  · intro dead
    have dead_entry : ∀ entry ∈ s.held, entry.task.id = id →
        ¬ Live (s.cancelTimer id) entry.task.serial := by
      intro entry member own
      obtain ⟨known, same⟩ := wf.known entry member
      exact dead _ known (same.symm.trans own)
    refine ⟨?_, ?_⟩
    · intro entry member now place own
      refine dead_entry entry member own ⟨entry, ?_, rfl, .inl ⟨now, place⟩⟩
      rwa [held_cancelTimer]
    · intro entry member own tracked
      apply (s.cancelTimer_flags id _).mp
      apply Bool.eq_true_of_not_eq_false
      intro unset
      refine dead_entry entry member own ⟨entry, ?_, rfl, .inr ⟨unset, tracked⟩⟩
      rwa [held_cancelTimer]
  · rintro ⟨quiet, reaches⟩ serial known same ⟨entry, member, own, way⟩
    rw [held_cancelTimer] at member
    have named : entry.task.id = id := by rw [(wf.known entry member).2, own, same]
    rcases way with ⟨now, place⟩ | ⟨unset, tracked⟩
    · exact quiet entry member now place named
    · have set := (s.cancelTimer_flags id _).mpr (reaches entry member named tracked)
      rw [own, unset] at set
      cases set

/-- As long as no id comes twice, a cancel reaches the tasks with the id. -/
theorem reaches_of_few (inv : Invariant s) (few : s.registered ≤ 2 ^ 64) (id : UInt64) :
    Reaches s id := by
  intro entry member own tracked
  rw [← own]
  exact .inr (inv.flagged few entry member tracked)

/--
Whatever has been added, cancelled and run before, also by callbacks inside passes: once
`cancelTimer` has returned, the callback under the id is not started again exactly when no
task with the id waits in the batch of a pass in flight and the flag in `timerFlags` is
the one of every other task with the id.  The second condition always holds unless the
ids have come round.
-/
theorem cancel_final_iff {events : List Event} (reached : run? step initial events = some s)
    (id : UInt64) :
    ((∀ serial < s.registered, idOf serial = id → ∀ later final,
        run? step (s.cancelTimer id) later = some final → final.runsOf serial = s.runsOf serial) ↔
      NoneWaiting s id ∧ Reaches s id) ∧ (s.registered ≤ 2 ^ 64 → Reaches s id) := by
  have inv := invariant_run reached
  refine ⟨?_, fun few => reaches_of_few inv few id⟩
  rw [← dead_iff inv.wellFormed]
  refine forall_congr' fun serial => forall₂_congr fun known _ => ?_
  have before : (s.cancelTimer id).runsOf serial = s.runsOf serial :=
    runsOf_of_runs (s.cancelTimer_runs id)
  constructor
  · intro settled live
    have bounded : Bounded (s.cancelTimer id) := by
      rw [s.cancelTimer_eq id]
      exact ⟨inv.bounded.clock, inv.bounded.nextRun⟩
    obtain ⟨later, final, run, started⟩ := exists_start_of_live bounded live
    rw [settled later final run, before] at started
    exact Nat.lt_irrefl _ started
  · intro dead later final run
    have wf : WellFormed (s.cancelTimer id) := by
      rw [s.cancelTimer_eq id]
      exact { inv.wellFormed with }
    have start : Dead serial (s.runsOf serial) (s.cancelTimer id) :=
      ⟨wf, by rwa [cancelTimer_registered], dead, before⟩
    exact (start.run run).starts

/-- The idle timer of a server, cancelled between two passes. -/
theorem cancel_final_iff_idleTimer :
    NoneWaiting (initial.runEvery 1 0) 1 ∧
      ∀ later final, run? step ((initial.runEvery 1 0).cancelTimer 1) later = some final →
        final.runsOf 0 = [] := by
  have reached : run? step initial [.runEvery 1 0] = some (initial.runEvery 1 0) :=
    run?_cons_eq_some.mpr ⟨_, if_pos (by decide +kernel), rfl⟩
  have settled := cancel_final_iff reached 1
  have quiet : NoneWaiting (initial.runEvery 1 0) 1 := by
    intro entry member now place
    cases List.mem_singleton.mp member
    cases place
  exact ⟨quiet, settled.1.mpr ⟨quiet, settled.2 (by decide)⟩ 0 Nat.one_pos rfl⟩

/-- A one-shot timer that closes a server, and the idle timer of the server. -/
def closingTask : TimerTask := ⟨1, 0, 1000000000, 0⟩

def idleTask : TimerTask := ⟨2, 1, 1000000000, 1000⟩

/-- Both come due in one pass, and the first callback cancels the second timer. -/
def cancelInPass : List Event :=
  [.runAfter 1 0, .runEvery 1 0, .processTimers 1000000000 [closingTask, idleTask], .start,
    .cancelTimer 2]

theorem cancelled_callback_started :
    (run? step initial cancelInPass).map (fun s => s.runsOf 1) = some [] ∧
      (run? step initial (cancelInPass ++ [.finish false, .start])).map (fun s => s.runsOf 1) =
        some [1000000000] := by
  decide +kernel

end Final

end RpcFramework.TimerQueue
