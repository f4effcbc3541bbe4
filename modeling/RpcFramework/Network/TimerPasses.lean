import RpcFramework.Network.TimerStore

/-!
# What the passes run

A pass starts the tasks of its batch in the order in which they were popped, whatever its
callbacks do, also when they drive passes of their own.  A one-shot task that is not
cancelled in time is popped by the first pass that finds it due, and is started by this
pass and by no other.
-/

namespace RpcFramework.TimerQueue

open StepRun

/-! ## The stack of passes -/

/-- What a step does to the passes in flight. -/
inductive StackMove (event : Event) : List Pass → List Pass → Prop
  | same (other : event ≠ .start) (passes : List Pass) : StackMove event passes passes
  | pushed (other : event ≠ .start) (pass : Pass) (passes : List Pass) :
      StackMove event passes (pass :: passes)
  | started (called : event = .start) (now : Int) (task : TimerTask) (rest : List TimerTask)
      (outer : List Pass) :
      StackMove event (⟨now, none, task :: rest⟩ :: outer) (⟨now, some task, rest⟩ :: outer)
  | finished (other : event ≠ .start) (now : Int) (task : TimerTask) (rest : List TimerTask)
      (outer : List Pass) :
      StackMove event (⟨now, some task, rest⟩ :: outer) (⟨now, none, rest⟩ :: outer)
  | ended (other : event ≠ .start) (now : Int) (outer : List Pass) :
      StackMove event (⟨now, none, []⟩ :: outer) outer

/-- The task whose callback an event enters. -/
def startedTask (passes : List Pass) (event : Event) : List TimerTask :=
  match event, passes with
  | .start, ⟨_, none, task :: _⟩ :: _ => [task]
  | _, _ => []

/-- The tasks that the pass on top of `depth` passes starts, until it has ended. -/
def startedIn (depth : Nat) : TimerQueue → List Event → List TimerTask
  | _, [] => []
  | s, event :: later =>
      match step s event with
      | none => []
      | some next =>
          if s.passes.length ≤ depth then []
          else if s.passes.length = depth + 1 then
            startedTask s.passes event ++ startedIn depth next later
          else startedIn depth next later

section Stack

variable {s next : TimerQueue} {event : Event}

theorem step_stack (taken : step s event = some next) :
    StackMove event s.passes next.passes := by
  cases steps_of_step taken with
  | added registers now delay interval =>
      refine .same ?_ _
      rintro rfl
      cases registers
  | cancelled id =>
      rw [s.cancelTimer_eq id]
      exact .same Event.noConfusion _
  | collected now order left reads => exact .pushed Event.noConfusion _ _
  | started now task rest outer stack =>
      rw [stack]
      exact .started rfl now task rest outer
  | renewed threw now task rest outer stack =>
      rw [stack]
      exact .finished Event.noConfusion now task rest outer
  | finished threw now task rest outer stack =>
      rw [stack]
      exact .finished Event.noConfusion now task rest outer
  | ended now outer stack =>
      rw [stack]
      exact .ended Event.noConfusion now outer

theorem startedTask_of_ne (other : event ≠ .start) (passes : List Pass) :
    startedTask passes event = [] := by
  unfold startedTask
  split
  · exact absurd rfl other
  · rfl

/-- A pass further down stays as it is; the one on top starts the first task of its batch,
or keeps its batch, or ends with nothing left. -/
theorem StackMove.batch {above outer after : List Pass} {pass : Pass}
    (move : StackMove event (above ++ pass :: outer) after) :
    (∃ others behind, after = others ++ behind :: outer ∧
        pass.expiredTasks =
          (if above = [] then startedTask (pass :: outer) event else []) ++ behind.expiredTasks) ∨
      above = [] ∧ after = outer ∧ pass.expiredTasks = [] ∧ event ≠ .start := by
  cases above with
  | nil =>
      rw [List.nil_append] at move
      rw [if_pos rfl]
      cases move with
      | same other =>
          rw [startedTask_of_ne other]
          exact .inl ⟨[], pass, rfl, rfl⟩
      | pushed other inner =>
          rw [startedTask_of_ne other]
          exact .inl ⟨[inner], pass, rfl, rfl⟩
      | started called now task rest =>
          rw [called]
          exact .inl ⟨[], _, rfl, rfl⟩
      | finished other now task rest =>
          rw [startedTask_of_ne other]
          exact .inl ⟨[], _, rfl, rfl⟩
      | ended other now => exact .inr ⟨rfl, rfl, rfl, other⟩
  | cons top above =>
      rw [if_neg (List.cons_ne_nil _ _)]
      rw [List.cons_append] at move
      cases move with
      | same other => exact .inl ⟨top :: above, pass, rfl, rfl⟩
      | pushed other inner => exact .inl ⟨inner :: top :: above, pass, rfl, rfl⟩
      | started called now task rest => exact .inl ⟨_ :: above, pass, rfl, rfl⟩
      | finished other now task rest => exact .inl ⟨_ :: above, pass, rfl, rfl⟩
      | ended other now => exact .inl ⟨above, pass, rfl, rfl⟩

theorem startedIn_ended {depth : Nat} (ended : s.passes.length ≤ depth) (later : List Event) :
    startedIn depth s later = [] := by
  cases later with
  | nil => rfl
  | cons event later =>
      rw [startedIn]
      split
      · rfl
      · exact if_pos ended

/-- The step of `startedIn` while the pass is in flight. -/
theorem startedIn_cons {above outer : List Pass} {pass : Pass} {later : List Event}
    (stack : s.passes = above ++ pass :: outer) (taken : step s event = some next) :
    startedIn outer.length s (event :: later) =
      (if above = [] then startedTask (pass :: outer) event else []) ++
        startedIn outer.length next later := by
  have size : s.passes.length = above.length + (outer.length + 1) := by
    rw [stack, List.length_append, List.length_cons]
  have flight : ¬ s.passes.length ≤ outer.length := by omega
  rw [startedIn, taken]
  dsimp only
  rw [if_neg flight]
  cases above with
  | nil => rw [if_pos (by rw [size, List.length_nil, Nat.zero_add]), if_pos rfl, stack,
      List.nil_append]
  | cons top above =>
      have deeper : s.passes.length ≠ outer.length + 1 := by
        rw [size, List.length_cons]
        omega
      rw [if_neg deeper, if_neg (List.cons_ne_nil _ _), List.nil_append]

/-- A pass starts the tasks of its batch in their order, and has started them all when it
has ended. -/
theorem startedIn_batch (later : List Event) {above outer : List Pass} {pass : Pass}
    (stack : s.passes = above ++ pass :: outer) :
    startedIn outer.length s later <+: pass.expiredTasks ∧
      ∀ final, run? step s later = some final → final.passes.length ≤ outer.length →
        startedIn outer.length s later = pass.expiredTasks := by
  induction later generalizing s above pass with
  | nil =>
      refine ⟨List.nil_prefix, ?_⟩
      intro final reached ended
      cases reached
      rw [stack, List.length_append, List.length_cons] at ended
      omega
  | cons event later ih =>
      cases taken : step s event with
      | none =>
          rw [startedIn, taken]
          refine ⟨List.nil_prefix, ?_⟩
          intro final reached
          obtain ⟨next, also, _⟩ := run?_cons_eq_some.mp reached
          rw [taken] at also
          cases also
      | some next =>
          have move := step_stack taken
          rw [stack] at move
          rw [startedIn_cons stack taken]
          have tail : ∀ {final}, run? step s (event :: later) = some final →
              run? step next later = some final := by
            intro final reached
            obtain ⟨second, also, rest⟩ := run?_cons_eq_some.mp reached
            cases taken.symm.trans also
            exact rest
          rcases move.batch with ⟨others, behind, after, batch⟩ | ⟨rfl, after, empty, other⟩
          · obtain ⟨leading, whole⟩ := ih after
            rw [batch]
            refine ⟨(List.prefix_append_right_inj _).mpr leading, ?_⟩
            intro final reached ended
            rw [whole final (tail reached) ended]
          · rw [startedIn_ended (Nat.le_of_eq (congrArg List.length after)), if_pos rfl,
              startedTask_of_ne other, empty]
            exact ⟨List.nil_prefix, fun _ _ _ => rfl⟩

/-! ## The order of a pass -/

/-- The batch of a pass are the popped tasks that are not cancelled. -/
theorem startedIn_collected {now : Int} {order : List TimerTask}
    (taken : step s (.processTimers now order) = some next) (later : List Event) :
    startedIn s.passes.length next later <+: order.filter (fun task => !s.flags task.serial) ∧
      ∀ final, run? step next later = some final → final.passes.length ≤ s.passes.length →
        startedIn s.passes.length next later =
          order.filter fun task => !s.flags task.serial := by
  obtain ⟨left, _, rfl⟩ := processTimers_eq taken
  have stack : (s.collected now order left).passes =
      [] ++ ⟨now, none, order.filter fun task => !s.flags task.serial⟩ :: s.passes := by
    rw [collected, collect_expired]
    rfl
  exact startedIn_batch later stack

/-- The tasks of a pass are started in the order of their due times. -/
theorem startedIn_sorted {now : Int} {order : List TimerTask}
    (taken : step s (.processTimers now order) = some next) (later : List Event) :
    (startedIn s.passes.length next later).Pairwise
      fun first second => first.nextRun ≤ second.nextRun := by
  obtain ⟨left, drained, _⟩ := processTimers_eq taken
  have sorted := PriorityQueue.drain?_sorted drained
  exact (sorted.sublist List.filter_sublist).sublist (startedIn_collected taken later).1.sublist

end Stack

/-! ## One-shot tasks -/

/-- A one-shot task in the heap that is not cancelled. -/
structure Pending (serial : Nat) (due : Int) (s : TimerQueue) : Prop where
  known : serial < s.registered
  unset : s.flags serial = false
  stored : ∃ task ∈ s.timers, task.serial = serial ∧ task.nextRun = due ∧ task.interval = 0
  unstarted : s.runsOf serial = []

/-- A one-shot task behind its collection: it waits, or runs, or is gone. -/
structure Once (serial : Nat) (time : Int) (s : TimerQueue) : Prop where
  known : serial < s.registered
  placed : ∀ entry ∈ s.held, entry.task.serial = serial → entry.task.interval = 0 ∧
    (entry.place = .waiting time ∧ s.runsOf serial = [] ∨
      entry.place = .running ∧ s.runsOf serial = [time])
  gone : (∀ entry ∈ s.held, entry.task.serial ≠ serial) → s.runsOf serial = [time]

section OneShot

variable {s next : TimerQueue} {event : Event} {serial : Nat} {due time : Int}
  {gone came rest : List Entry}

theorem timers_kept {task : TimerTask} (member : task ∈ s.timers)
    (early : ∀ now order, event = .processTimers now order → now < task.nextRun)
    (taken : step s event = some next) : task ∈ next.timers := by
  cases steps_of_step taken with
  | added => exact List.mem_cons_of_mem _ member
  | cancelled id =>
      rw [s.cancelTimer_eq id]
      exact member
  | collected now order left reads drained =>
      rcases List.mem_append.mp ((PriorityQueue.drain?_perm drained).mem_iff.mp member) with
        popped | kept
      · exact absurd (PriorityQueue.drain?_due drained popped) (not_le.mpr (early now order rfl))
      · exact kept
  | started => exact member
  | renewed => exact List.mem_cons_of_mem _ member
  | finished => exact member
  | ended => exact member

theorem Move.runsOf_kept (move : Move s event next gone came) (wf : WellFormed s)
    (before : s.held.Perm (gone ++ rest)) {entry : Entry} (member : entry ∈ s.held)
    (own : entry.task.serial = serial) (still : ∀ now, entry.place ≠ .waiting now) :
    next.runsOf serial = s.runsOf serial := by
  refine move.runsOf_eq before fun now task waiting also => ?_
  cases wf.entry_eq member waiting (own.trans also.symm)
  exact still now rfl

theorem Pending.step (pending : Pending serial due s) (wf : WellFormed s)
    (calm : event ≠ .cancelTimer (idOf serial))
    (early : ∀ now order, event = .processTimers now order → now < due)
    (taken : step s event = some next) : Pending serial due next := by
  obtain ⟨gone, came, move, rest, before, _⟩ := step_moves taken
  obtain ⟨task, member, own, rfl, once⟩ := pending.stored
  have inside : ⟨.stored, task⟩ ∈ s.held := List.mem_append_left _ (List.mem_map_of_mem member)
  refine ⟨pending.known.trans_le (registered_le taken),
    move.unset_kept wf pending.known pending.unset calm,
    ⟨task, timers_kept member early taken, own, rfl, once⟩, ?_⟩
  rw [move.runsOf_kept wf before inside own fun _ => Place.noConfusion]
  exact pending.unstarted

/-- The first pass that finds the task due has it in its batch. -/
theorem Pending.collect (pending : Pending serial due s) (wf : WellFormed s) (reached : due ≤ time)
    {order : List TimerTask}
    (taken : TimerQueue.step s (.processTimers time order) = some next) :
    Once serial time next ∧
      serial ∈ (order.filter fun task => !s.flags task.serial).map TimerTask.serial := by
  have behind := wf.step taken
  obtain ⟨left, drained, rfl⟩ := processTimers_eq taken
  obtain ⟨task, member, rfl, rfl, once⟩ := pending.stored
  have popped : task ∈ order := by
    rcases List.mem_append.mp ((PriorityQueue.drain?_perm drained).mem_iff.mp member) with
      inside | kept
    · exact inside
    · exact absurd (PriorityQueue.drain?_left drained kept) (not_lt.mpr reached)
  have batched : task ∈ order.filter fun task => !s.flags task.serial :=
    List.mem_filter.mpr ⟨popped, by rw [pending.unset]; rfl⟩
  have waiting : ⟨.waiting time, task⟩ ∈ (s.collected time order left).held := by
    rw [held_collected]
    exact List.mem_append_right _ (List.mem_append_left _ (List.mem_map_of_mem batched))
  refine ⟨⟨pending.known, ?_, ?_⟩, List.mem_map_of_mem batched⟩
  · intro entry inside own
    cases behind.entry_eq inside waiting own
    exact ⟨once, .inl ⟨rfl, pending.unstarted⟩⟩
  · intro absent
    exact absurd rfl (absent _ waiting)

/-- Behind its collection the task is not in the heap again. -/
theorem Once.not_stored (collected : Once serial time s) {task : TimerTask}
    (stored : ⟨.stored, task⟩ ∈ s.held) : task.serial ≠ serial := by
  intro own
  rcases (collected.placed _ stored own).2 with ⟨place, _⟩ | ⟨place, _⟩
  · cases place
  · cases place

theorem Once.placed_step (collected : Once serial time s) (wf : WellFormed s)
    (taken : step s event = some next) :
    ∀ entry ∈ next.held, entry.task.serial = serial → entry.task.interval = 0 ∧
      (entry.place = .waiting time ∧ next.runsOf serial = [] ∨
        entry.place = .running ∧ next.runsOf serial = [time]) := by
  intro entry member own
  cases wf.stems taken collected.known member own with
  | stays held runs =>
      rw [runs]
      exact collected.placed entry held own
  | collected now task stored reached clock runs => exact absurd own (collected.not_stored stored)
  | started now task waiting runs =>
      obtain ⟨interval, ⟨place, none_yet⟩ | ⟨place, _⟩⟩ := collected.placed _ waiting own
      · cases place
        rw [runs, none_yet]
        exact ⟨interval, .inr ⟨rfl, rfl⟩⟩
      · cases place
  | renewed task running repeats runs =>
      have once := (collected.placed _ running own).1
      exact absurd repeats (once ▸ lt_irrefl _)

theorem Once.gone_step (collected : Once serial time s) (wf : WellFormed s)
    (taken : step s event = some next)
    (absent : ∀ entry ∈ next.held, entry.task.serial ≠ serial) : next.runsOf serial = [time] := by
  obtain ⟨gone, came, move, rest, before, _⟩ := step_moves taken
  by_cases present : ∃ entry ∈ s.held, entry.task.serial = serial
  · obtain ⟨entry, member, own⟩ := present
    obtain ⟨_, place⟩ := collected.placed entry member own
    cases step_fate taken member with
    | stays held => exact absurd own (absent entry held)
    | collected now stored kept =>
        have inside : ⟨.stored, entry.task⟩ ∈ s.held := stored ▸ member
        exact absurd own (collected.not_stored inside)
    | started now waiting runs held => exact absurd own (absent ⟨.running, entry.task⟩ held)
    | finished running flags kept =>
        rw [running] at place
        rcases place with ⟨place, _⟩ | ⟨_, ran⟩
        · cases place
        · have still : ∀ now, entry.place ≠ .waiting now := by
            rw [running]
            exact fun _ => Place.noConfusion
          rw [move.runsOf_kept wf before member own still]
          exact ran
  · have none_held : ∀ entry ∈ s.held, entry.task.serial ≠ serial := fun entry member own =>
      present ⟨entry, member, own⟩
    rw [← collected.gone none_held]
    exact move.runsOf_eq before fun now task => none_held ⟨.waiting now, task⟩

theorem Once.step (collected : Once serial time s) (wf : WellFormed s)
    (taken : step s event = some next) : Once serial time next :=
  ⟨collected.known.trans_le (registered_le taken), collected.placed_step wf taken,
    collected.gone_step wf taken⟩

theorem Once.run {later : List Event} {final : TimerQueue} (collected : Once serial time s)
    (wf : WellFormed s) (reached : run? TimerQueue.step s later = some final) :
    Once serial time final := by
  have kept : ∀ s event next, WellFormed s → Once serial time s → True →
      TimerQueue.step s event = some next → Once serial time next := by
    intro s event next wf collected _ taken
    exact collected.step wf taken
  exact (wf.run kept collected (fun _ _ => trivial) reached).2

/-- Outside of the passes the task has been run. -/
theorem Once.ran (collected : Once serial time s) (idle : s.passes = []) :
    s.runsOf serial = [time] := by
  apply collected.gone
  intro entry member
  have stored := member
  rw [held_idle idle] at stored
  obtain ⟨task, _, rfl⟩ := List.mem_map.mp stored
  exact collected.not_stored member

/-- The task is not run twice, nor by another pass. -/
theorem Once.at_most (collected : Once serial time s) : s.runsOf serial <+: [time] := by
  by_cases present : ∃ entry ∈ s.held, entry.task.serial = serial
  · obtain ⟨entry, member, own⟩ := present
    rcases (collected.placed entry member own).2 with ⟨_, none_yet⟩ | ⟨_, ran⟩
    · rw [none_yet]
      exact List.nil_prefix
    · rw [ran]
  · rw [collected.gone fun entry member own => present ⟨entry, member, own⟩]

theorem Pending.run {first : List Event} {middle : TimerQueue} (pending : Pending serial due s)
    (wf : WellFormed s) (calm : .cancelTimer (idOf serial) ∉ first)
    (early : ∀ now order, .processTimers now order ∈ first → now < due)
    (reached : run? TimerQueue.step s first = some middle) :
    WellFormed middle ∧ Pending serial due middle := by
  refine wf.run ?_ pending (fun _ => id) reached
  intro s event next wf pending member taken
  refine pending.step wf ?_ ?_ taken
  · intro cancel
    exact calm (cancel ▸ member)
  · intro now order pass
    exact early now order (pass ▸ member)

theorem pending_addTimer (wf : WellFormed s) (now delay : Int) :
    Pending s.registered (plusMs now delay) (s.addTimer now delay 0) := by
  refine ⟨Nat.lt_succ_self _, Function.update_self .., ?_, ?_⟩
  · exact ⟨s.newTask now delay 0, List.mem_cons_self .., rfl, rfl, rfl⟩
  · exact wf.runsOf_new

end OneShot

/-! ## The store and its passes -/

/-- The due time of a one-shot timer, as its task has it. -/
def dueTime (now : Int) (delaySeconds : Binary64) : Int :=
  plusMs now (toMs (effectiveDelay delaySeconds))

section Summary

variable {s : TimerQueue}

/-- The pass that collects the task of a one-shot timer starts it, and no other pass does. -/
theorem Pending.runs_once {serial : Nat} {due time : Int} {order : List TimerTask}
    {rest : List Event} {pass final : TimerQueue} (pending : Pending serial due s)
    (wf : WellFormed s) (reached : due ≤ time)
    (taken : TimerQueue.step s (.processTimers time order) = some pass)
    (later : run? TimerQueue.step pass rest = some final) :
    final.runsOf serial <+: [time] ∧
      (final.passes = [] → final.runsOf serial = [time] ∧
        serial ∈ (startedIn s.passes.length pass rest).map TimerTask.serial) := by
  obtain ⟨collected, batched⟩ := pending.collect wf reached taken
  have once := collected.run (wf.step taken) later
  refine ⟨once.at_most, fun idle => ⟨once.ran idle, ?_⟩⟩
  have ended : final.passes.length ≤ s.passes.length := by
    rw [idle]
    exact Nat.zero_le _
  rw [(startedIn_collected taken rest).2 final later ended]
  exact batched

/--
In every state outside of the passes, if no registration has been given an id that was
still in use, the keys of the map of flags are the ids of the tasks in the heap, each of
which comes once and leads to the flag of its task.  A one-shot timer is not run before the
first pass at or past its due time; if it is not cancelled before this pass, it is run by
this pass, once.  Every pass starts its tasks in the order of their due times.  The ids of
the first 2^64 registrations are never in use.
-/
theorem timer_store_invariant {events : List Event} (reached : run? step initial events = some s) :
    (Along step Fresh initial events → s.passes = [] →
      (∀ id, (s.timerFlags id).isSome ↔ id ∈ s.timers.map TimerTask.id) ∧
        (s.timers.map TimerTask.id).Nodup ∧
        ∀ task ∈ s.timers, s.timerFlags task.id = some task.serial) ∧
    (∀ delaySeconds now next first middle, step s (.runAfter delaySeconds now) = some next →
      run? step next first = some middle → .cancelTimer s.nextTimerId ∉ first →
      (∀ time order, .processTimers time order ∈ first → time < dueTime now delaySeconds) →
      middle.runsOf s.registered = [] ∧
      ∀ time order pass rest final, dueTime now delaySeconds ≤ time →
        step middle (.processTimers time order) = some pass → run? step pass rest = some final →
        final.runsOf s.registered <+: [time] ∧
          (final.passes = [] → final.runsOf s.registered = [time] ∧
            s.registered ∈ (startedIn middle.passes.length pass rest).map TimerTask.serial)) ∧
    (∀ now order pass later, step s (.processTimers now order) = some pass →
      (startedIn s.passes.length pass later).Pairwise
        fun first second => first.nextRun ≤ second.nextRun) ∧
    (s.registered ≤ 2 ^ 64 → Along step Fresh initial events) := by
  have wf := (invariant_run reached).wellFormed
  refine ⟨?_, ?_, ?_, ?_⟩
  · intro fresh idle
    have store := Store.run fresh reached
    refine ⟨store.flag_iff idle, store.ids_nodup, ?_⟩
    intro task member
    have inside : ⟨.stored, task⟩ ∈ s.held := List.mem_append_left _ (List.mem_map_of_mem member)
    exact store.flagged _ inside (.inl rfl)
  · intro delaySeconds now next first middle added before calm early
    have taken := added
    rw [step, Option.ite_none_right_eq_some] at taken
    have start := pending_addTimer wf now (toMs (effectiveDelay delaySeconds))
    rw [← runAfter, Option.some_inj.mp taken.2] at start
    rw [wf.nextId] at calm
    obtain ⟨still, pending⟩ := start.run (wf.step added) calm early before
    refine ⟨pending.unstarted, ?_⟩
    intro time order pass rest final due taken later
    exact pending.runs_once still due taken later
  · intro now order pass later taken
    exact startedIn_sorted taken later
  · exact fresh_of_few wellFormed_initial reached

/-- A one-shot and a periodic timer. -/
def twoTimers : TimerQueue := (initial.runAfter 1 0).runEvery 1 0

/-- The pass in which both are due. -/
def secondPass : Event :=
  .processTimers 1000000000 [⟨1, 0, 1000000000, 0⟩, ⟨2, 1, 1000000000, 1000⟩]

def twoCallbacks : List Event := [.start, .finish false, .start, .finish true, .endPass]

def collectedTwo : TimerQueue := (step twoTimers secondPass).getD initial

def afterPass : TimerQueue := (run? step collectedTwo twoCallbacks).getD initial

/-- The one-shot timer has been run by the pass, and the periodic one is left. -/
theorem timer_store_invariant_twoTimers :
    afterPass.runsOf 0 = [1000000000] ∧ afterPass.timers.map TimerTask.id = [2] ∧
      ∀ id, (afterPass.timerFlags id).isSome ↔ id ∈ [2] := by
  have first : step initial (.runAfter 1 0) = some (initial.runAfter 1 0) :=
    if_pos (by decide +kernel)
  have second : run? step (initial.runAfter 1 0) [.runEvery 1 0] = some twoTimers :=
    run?_cons_eq_some.mpr ⟨_, if_pos (by decide +kernel), rfl⟩
  have pass : step twoTimers secondPass = some collectedTwo :=
    (Option.getD_of_ne_none (Option.isSome_iff_ne_none.mp (by decide +kernel)) _).symm
  have rest : run? step collectedTwo twoCallbacks = some afterPass :=
    run?_eq_some_getD (by decide +kernel)
  have ids : afterPass.timers.map TimerTask.id = [2] := by decide +kernel
  have idle : afterPass.passes = [] := by decide +kernel
  have once := (timer_store_invariant (show run? step initial [] = some initial from rfl)).2.1
    1 0 _ _ _ first second (by simp) (by simp)
  have whole := run?_cons_eq_some.mpr
    ⟨_, first, run?_append second (run?_cons_eq_some.mpr ⟨_, pass, rest⟩)⟩
  have settled := timer_store_invariant whole
  refine ⟨((once.2 _ _ _ _ _ (by decide +kernel) pass rest).2 idle).1, ids, ?_⟩
  rw [← ids]
  exact (settled.1 (settled.2.2.2 (by decide +kernel)) idle).1

/-! ## Ids come round -/

/-- A one-shot timer with no delay and the pass that runs it. -/
def round (serial : Nat) : List Event :=
  [.runAfter 0 0, .processTimers 0 [⟨idOf serial, serial, 0, 0⟩], .start, .finish false, .endPass]

/-- One task is in the heap, which is not due, and the registrations have been counted. -/
structure OneStored (first : TimerTask) (count : Nat) (s : TimerQueue) : Prop where
  heap : s.timers = [first]
  idle : s.passes = []
  clock : s.clock = 0
  counted : s.registered = count
  nextId : s.nextTimerId = idOf count

/-- A round leaves the heap as it is and takes an id. -/
theorem OneStored.round {first : TimerTask} {count : Nat} (stored : OneStored first count s)
    (later : 0 < first.nextRun) :
    ∃ next, run? step s (round count) = some next ∧ OneStored first (count + 1) next := by
  let task : TimerTask := ⟨idOf count, count, 0, 0⟩
  let added := s.runAfter 0 0
  have noDelay : toMs (effectiveDelay 0) = 0 := by decide +kernel
  have heap : added.timers = [task, first] := by
    have new : s.newTask 0 (toMs (effectiveDelay 0)) 0 = task := by
      rw [newTask, noDelay, stored.nextId, stored.counted]
      rfl
    change s.newTask 0 (toMs (effectiveDelay 0)) 0 :: s.timers = _
    rw [new, stored.heap]
  have unset : added.flags count = false := by
    rw [← stored.counted]
    exact Function.update_self ..
  have registered : step s (.runAfter 0 0) = some added := by
    refine if_pos ⟨?_, ⟨le_of_eq stored.clock, by decide⟩, by decide +kernel⟩
    rw [inControl, stored.idle]
  have drained : PriorityQueue.drain? TimerTask.nextRun 0 [task] [task, first] = some [first] := by
    have top : PriorityQueue.IsTop TimerTask.nextRun task [task, first] ∧ task.nextRun ≤ 0 :=
      ⟨⟨List.mem_cons_self .., by simp [task, later.le]⟩, le_rfl⟩
    rw [PriorityQueue.drain?, if_pos top, List.erase_cons_head]
    have left : ∀ item ∈ [first], 0 < item.nextRun := List.forall_mem_singleton.mpr later
    exact if_pos left
  have collected : step added (.processTimers 0 [task]) =
      some (added.collected 0 [task] [first]) := by
    have control : added.inControl = true ∧ added.Reads 0 := by
      refine ⟨?_, le_rfl, by decide⟩
      change s.inControl = true
      rw [inControl, stored.idle]
    rw [step, if_pos control, processTimers?, heap, drained]
  have stack : (added.collected 0 [task] [first]).passes = [⟨0, none, [task]⟩] := by
    rw [TimerQueue.collected, collect_expired]
    change ⟨0, none, [] ++ [task].filter _⟩ :: s.passes = _
    simp [task, unset, stored.idle]
  have started := show step (added.collected 0 [task] [first]) .start = some _ by
    rw [step, start?, stack]
  refine ⟨_, run?_cons_eq_some.mpr ⟨_, registered, run?_cons_eq_some.mpr ⟨_, collected,
    run?_cons_eq_some.mpr ⟨_, started, rfl⟩⟩⟩, rfl, rfl, rfl, congrArg (· + 1) stored.counted, ?_⟩
  rw [idOf_succ, ← stored.nextId]
  rfl

/-- The rounds from a number of registrations on. -/
def rounds (count : Nat) : Nat → List Event
  | 0 => []
  | more + 1 => round count ++ rounds (count + 1) more

theorem OneStored.rounds {first : TimerTask} (later : 0 < first.nextRun) (more : Nat) {count : Nat}
    (stored : OneStored first count s) :
    ∃ next, run? step s (rounds count more) = some next ∧ OneStored first (count + more) next := by
  induction more generalizing count s with
  | zero => exact ⟨s, rfl, stored⟩
  | succ more ih =>
      obtain ⟨next, reached, one⟩ := stored.round later
      obtain ⟨final, tail, all⟩ := ih one
      refine ⟨final, run?_append reached tail, ?_⟩
      rwa [Nat.add_right_comm] at all

/-- While a timer stays in the heap, the ids are used up by timers that are run at once; the
next timer is given the id of the first. -/
theorem id_given_twice :
    ∃ final, run? step initial (.runAfter 1 0 :: (rounds 1 (2 ^ 64 - 1) ++ [.runAfter 1 0])) =
        some final ∧
      final.passes = [] ∧ final.timers.map TimerTask.id = [1, 1] ∧
        ¬ (final.timers.map TimerTask.id).Nodup := by
  have first : step initial (.runAfter 1 0) = some (initial.runAfter 1 0) :=
    if_pos (by decide +kernel)
  have start : OneStored ⟨1, 0, 1000000000, 0⟩ 1 (initial.runAfter 1 0) :=
    ⟨by decide +kernel, rfl, rfl, rfl, rfl⟩
  obtain ⟨s, reached, stored⟩ := start.rounds (by decide) (2 ^ 64 - 1)
  have last : step s (.runAfter 1 0) = some (s.runAfter 1 0) := by
    refine if_pos ⟨?_, ⟨le_of_eq stored.clock, by decide⟩, by decide +kernel⟩
    rw [inControl, stored.idle]
  have ids : (s.runAfter 1 0).timers.map TimerTask.id = [1, 1] := by
    change s.nextTimerId :: s.timers.map TimerTask.id = _
    rw [stored.nextId, stored.heap]
    decide
  refine ⟨_, run?_cons_eq_some.mpr ⟨_, first, run?_append reached
    (run?_cons_eq_some.mpr ⟨_, last, rfl⟩)⟩, stored.idle, ids, ?_⟩
  rw [ids]
  decide

end Summary

end RpcFramework.TimerQueue
