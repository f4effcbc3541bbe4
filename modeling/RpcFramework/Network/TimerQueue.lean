import Mathlib.Data.List.Nodup
import Mathlib.Data.UInt
import RpcFramework.Lib.Binary64
import RpcFramework.Lib.PriorityQueue
import RpcFramework.Lib.StepRun

/-!
# The timers of the event loop

`processTimers` collects the due tasks under the lock and runs their callbacks outside
of it.  A callback may add and cancel timers, and it may drive the loop, which starts a
pass inside the pass: the passes in flight form a stack.  A periodic task goes back to
the heap when its callback has returned or thrown.

The registrations are numbered.  The number stands for the callback and for the shared
flag of a task; the id of a task is a 64-bit counter.

Delays and intervals are doubles, a product of doubles is rounded, and the sums of times
are those of signed 64-bit numbers of nanoseconds, which wrap around.  A reading of the
clock is such a number.
-/

namespace RpcFramework

open StepRun

namespace TimerQueue

def kNanosPerMs : Int := 1000000

/-- The `int64_t` that an overflowing operation leaves. -/
def int64 (n : Int) : Int := n.bmod (2 ^ 64)

/-- A time in nanoseconds and a number of milliseconds, added as the clock adds them. -/
def plusMs (time ms : Int) : Int := int64 (time + int64 (kNanosPerMs * ms))

/-- `nextRun` is a clock reading in nanoseconds, `interval` a number of milliseconds. -/
structure TimerTask where
  id : UInt64
  serial : Nat
  nextRun : Int
  interval : Int
  deriving DecidableEq, Repr

/-- A call of `processTimers` behind the collection: the callback that is running, and the
tasks of `expiredTasks` behind it. -/
structure Pass where
  now : Int
  running : Option TimerTask
  expiredTasks : List TimerTask
  deriving DecidableEq, Repr

/-- What the loop thread does.  A reading of the clock is part of the event; so is the
order in which the heap hands out the due tasks, which is open for equal times. -/
inductive Event where
  | runAfter (delaySeconds : Binary64) (now : Int)
  | runEvery (intervalSeconds : Binary64) (now : Int)
  | cancelTimer (id : UInt64)
  | processTimers (now : Int) (order : List TimerTask)
  | start
  | finish (threw : Bool)
  | endPass

end TimerQueue

open TimerQueue

/-- The flag of a registration is set when it has been cancelled.  `runs` records the
callbacks that have been started, with the clock at the collection. -/
structure TimerQueue where
  timers : List TimerTask
  timerFlags : UInt64 → Option Nat
  flags : Nat → Bool
  nextTimerId : UInt64
  registered : Nat
  passes : List Pass
  clock : Int
  runs : List (Nat × Int)

namespace TimerQueue

def initial : TimerQueue := ⟨[], fun _ => none, fun _ => false, 1, 0, [], 0, []⟩

/-- The loop thread is outside of all passes, or inside a callback. -/
def inControl (s : TimerQueue) : Bool :=
  match s.passes with
  | [] => true
  | pass :: _ => pass.running.isSome

/-- `duration_cast` to milliseconds: the rounded product is truncated; no argument is
negative. -/
def toMs (seconds : Binary64) : Int := ⌊Binary64.toNearest (seconds.value * 1000)⌋

def newTask (s : TimerQueue) (now delay interval : Int) : TimerTask :=
  ⟨s.nextTimerId, s.registered, plusMs now delay, interval⟩

def addTimer (s : TimerQueue) (now delay interval : Int) : TimerQueue :=
  { s with
    timers := s.newTask now delay interval :: s.timers
    timerFlags := Function.update s.timerFlags s.nextTimerId (some s.registered)
    flags := Function.update s.flags s.registered false
    nextTimerId := s.nextTimerId + 1
    registered := s.registered + 1
    clock := now }

def effectiveDelay (delaySeconds : Binary64) : Binary64 :=
  if delaySeconds.value < 0 then 0 else delaySeconds

theorem toNearest_oneMs : Binary64.toNearest (1152921504606847 / 2 ^ 60) =
    1152921504606847 / 2 ^ 60 := by decide +kernel

/-- The double that the literal 0.001 stands for. -/
def oneMs : Binary64 := ⟨1152921504606847 / 2 ^ 60, toNearest_oneMs⟩

def effectiveInterval (intervalSeconds : Binary64) : Binary64 :=
  if intervalSeconds.value ≤ 0 then oneMs else intervalSeconds

def runAfter (s : TimerQueue) (delaySeconds : Binary64) (now : Int) : TimerQueue :=
  s.addTimer now (toMs (effectiveDelay delaySeconds)) 0

def runEvery (s : TimerQueue) (intervalSeconds : Binary64) (now : Int) : TimerQueue :=
  s.addTimer now (toMs (effectiveInterval intervalSeconds))
    (toMs (effectiveInterval intervalSeconds))

def cancelTimer (s : TimerQueue) (id : UInt64) : TimerQueue :=
  match s.timerFlags id with
  | none => s
  | some serial => { s with flags := Function.update s.flags serial true }

/-- The body of the loop that collects the expired tasks. -/
def collect (flags : Nat → Bool) (collected : (UInt64 → Option Nat) × List TimerTask)
    (task : TimerTask) : (UInt64 → Option Nat) × List TimerTask :=
  if flags task.serial then (Function.update collected.1 task.id none, collected.2)
  else if task.interval = 0 then
    (Function.update collected.1 task.id none, collected.2 ++ [task])
  else (collected.1, collected.2 ++ [task])

/-- The state behind the collection, in which the callbacks are still to be run. -/
def collected (s : TimerQueue) (now : Int) (order left : List TimerTask) : TimerQueue :=
  let collected := order.foldl (collect s.flags) (s.timerFlags, [])
  { s with
    timers := left
    timerFlags := collected.1
    passes := ⟨now, none, collected.2⟩ :: s.passes
    clock := now }

/-- `processTimers` up to the end of the collection. -/
def processTimers? (s : TimerQueue) (now : Int) (order : List TimerTask) : Option TimerQueue :=
  match PriorityQueue.drain? TimerTask.nextRun now order s.timers with
  | none => none
  | some left => some (s.collected now order left)

/-- The callback of the next expired task is entered. -/
def start? (s : TimerQueue) : Option TimerQueue :=
  match s.passes with
  | ⟨now, none, task :: rest⟩ :: outer =>
      some { s with
        passes := ⟨now, some task, rest⟩ :: outer
        runs := s.runs ++ [(task.serial, now)] }
  | _ => none

def TimerTask.renewed (task : TimerTask) : TimerTask :=
  { task with nextRun := plusMs task.nextRun task.interval }

/-- The callback has returned, or its exception has been caught. -/
def finish? (s : TimerQueue) : Option TimerQueue :=
  match s.passes with
  | ⟨now, some task, rest⟩ :: outer =>
      if task.interval > 0 then
        some { s with timers := task.renewed :: s.timers, passes := ⟨now, none, rest⟩ :: outer }
      else some { s with passes := ⟨now, none, rest⟩ :: outer }
  | _ => none

def endPass? (s : TimerQueue) : Option TimerQueue :=
  match s.passes with
  | ⟨_, none, []⟩ :: outer => some { s with passes := outer }
  | _ => none

/-- The clock is steady, and `int64_t` holds its readings. -/
def Reads (s : TimerQueue) (now : Int) : Prop := s.clock ≤ now ∧ now < 2 ^ 63

instance instDecidableReads (s : TimerQueue) (now : Int) : Decidable (s.Reads now) :=
  inferInstanceAs (Decidable (_ ∧ _))

/-- `int64_t` holds the number of milliseconds; what a conversion of a larger double gives
is not defined. -/
def Converts (seconds : Binary64) : Prop := toMs seconds < 2 ^ 63

instance instDecidableConverts (seconds : Binary64) : Decidable (Converts seconds) :=
  inferInstanceAs (Decidable (_ < _))

def step (s : TimerQueue) : Event → Option TimerQueue
  | .runAfter delaySeconds now =>
      if s.inControl ∧ s.Reads now ∧ Converts (effectiveDelay delaySeconds) then
        some (s.runAfter delaySeconds now)
      else none
  | .runEvery intervalSeconds now =>
      if s.inControl ∧ s.Reads now ∧ Converts (effectiveInterval intervalSeconds) then
        some (s.runEvery intervalSeconds now)
      else none
  | .cancelTimer id => if s.inControl then some (s.cancelTimer id) else none
  | .processTimers now order =>
      if s.inControl ∧ s.Reads now then s.processTimers? now order else none
  | .start => s.start?
  | .finish _ => s.finish?
  | .endPass => s.endPass?

/-- The clock readings of the passes in which a callback has been started. -/
def runsOf (s : TimerQueue) (serial : Nat) : List Int :=
  (s.runs.filter fun run => run.1 = serial).map Prod.snd

/-! ## Sums of times -/

theorem plusMs_lt (time ms : Int) : plusMs time ms < 2 ^ 63 := Int.bmod_lt (by decide)

theorem int64_eq {n : Int} (low : -2 ^ 63 ≤ n) (high : n < 2 ^ 63) : int64 n = n :=
  Int.bmod_eq_of_le (by omega) (by omega)

/-- A sum that `int64_t` holds. -/
theorem plusMs_eq {time ms : Int} (since : 0 ≤ time) (nonneg : 0 ≤ ms)
    (fits : time + kNanosPerMs * ms < 2 ^ 63) : plusMs time ms = time + kNanosPerMs * ms := by
  rw [kNanosPerMs] at fits
  rw [plusMs, kNanosPerMs, int64_eq (n := 1000000 * ms) (by omega) (by omega),
    int64_eq (by omega) fits]

/-! ## What the steps are -/

/-- The event takes the next id. -/
def Event.Registers : Event → Prop
  | .runAfter .. => True
  | .runEvery .. => True
  | _ => False

inductive Steps (s : TimerQueue) : Event → TimerQueue → Prop
  | added {event : Event} (registers : event.Registers) (now delay interval : Int)
      (reads : s.Reads now) (nonneg : 0 ≤ interval) : Steps s event (s.addTimer now delay interval)
  | cancelled (id : UInt64) : Steps s (.cancelTimer id) (s.cancelTimer id)
  | collected (now : Int) (order left : List TimerTask) (reads : s.Reads now)
      (drained : PriorityQueue.drain? TimerTask.nextRun now order s.timers = some left) :
      Steps s (.processTimers now order) (s.collected now order left)
  | started (now : Int) (task : TimerTask) (rest : List TimerTask) (outer : List Pass)
      (stack : s.passes = ⟨now, none, task :: rest⟩ :: outer) :
      Steps s .start
        { s with
          passes := ⟨now, some task, rest⟩ :: outer
          runs := s.runs ++ [(task.serial, now)] }
  | renewed (threw : Bool) (now : Int) (task : TimerTask) (rest : List TimerTask)
      (outer : List Pass) (stack : s.passes = ⟨now, some task, rest⟩ :: outer)
      (periodic : 0 < task.interval) :
      Steps s (.finish threw)
        { s with timers := task.renewed :: s.timers, passes := ⟨now, none, rest⟩ :: outer }
  | finished (threw : Bool) (now : Int) (task : TimerTask) (rest : List TimerTask)
      (outer : List Pass) (stack : s.passes = ⟨now, some task, rest⟩ :: outer)
      (once : ¬ 0 < task.interval) :
      Steps s (.finish threw) { s with passes := ⟨now, none, rest⟩ :: outer }
  | ended (now : Int) (outer : List Pass) (stack : s.passes = ⟨now, none, []⟩ :: outer) :
      Steps s .endPass { s with passes := outer }

theorem effectiveInterval_nonneg (intervalSeconds : Binary64) :
    0 ≤ (effectiveInterval intervalSeconds).value := by
  unfold effectiveInterval
  split
  · norm_num [oneMs]
  · next positive => exact le_of_lt (not_le.mp positive)

theorem toMs_nonneg {seconds : Binary64} (nonneg : 0 ≤ seconds.value) : 0 ≤ toMs seconds :=
  Int.floor_nonneg.mpr (Binary64.toNearest_nonneg (mul_nonneg nonneg (by norm_num)))

theorem steps_of_step {s next : TimerQueue} {event : Event} (taken : step s event = some next) :
    Steps s event next := by
  cases event with
  | runAfter delaySeconds now =>
      rw [step, Option.ite_none_right_eq_some] at taken
      cases taken.2
      have registers : (Event.runAfter delaySeconds now).Registers := trivial
      exact .added registers now _ 0 taken.1.2.1 le_rfl
  | runEvery intervalSeconds now =>
      rw [step, Option.ite_none_right_eq_some] at taken
      cases taken.2
      have registers : (Event.runEvery intervalSeconds now).Registers := trivial
      exact .added registers now _ _ taken.1.2.1 (toMs_nonneg (effectiveInterval_nonneg _))
  | cancelTimer id =>
      rw [step, Option.ite_none_right_eq_some] at taken
      cases taken.2
      exact .cancelled id
  | processTimers now order =>
      rw [step, Option.ite_none_right_eq_some, processTimers?] at taken
      split at taken
      · cases taken.2
      · next left drained =>
          cases taken.2
          exact .collected now order left taken.1.2 drained
  | start =>
      rw [step, start?] at taken
      split at taken
      · next now task rest outer stack =>
          cases taken
          exact .started now task rest outer stack
      · cases taken
  | finish threw =>
      rw [step, finish?] at taken
      split at taken
      · next now task rest outer stack =>
          split at taken
          · next periodic =>
              cases taken
              exact .renewed threw now task rest outer stack periodic
          · next once =>
              cases taken
              exact .finished threw now task rest outer stack once
      · cases taken
  | endPass =>
      rw [step, endPass?] at taken
      split at taken
      · next now outer stack =>
          cases taken
          exact .ended now outer stack
      · cases taken

/-! ## Where the tasks are -/

inductive Place where
  | stored
  | waiting (now : Int)
  | running
  deriving DecidableEq, Repr

/-- A task and its place. -/
structure Entry where
  place : Place
  task : TimerTask
  deriving DecidableEq, Repr

def Pass.held (pass : Pass) : List Entry :=
  pass.running.toList.map (.mk .running) ++ pass.expiredTasks.map (.mk (.waiting pass.now))

/-- The tasks in the heap and in the passes in flight. -/
def held (s : TimerQueue) : List Entry :=
  s.timers.map (.mk .stored) ++ s.passes.flatMap Pass.held

/-- No flag, id or registration changes. -/
structure Quiet (s next : TimerQueue) : Prop where
  timerFlags : next.timerFlags = s.timerFlags
  flags : next.flags = s.flags
  nextTimerId : next.nextTimerId = s.nextTimerId
  registered : next.registered = s.registered

/-- What a step does: the entries that it takes away and those that it brings. -/
inductive Move (s : TimerQueue) (event : Event) (next : TimerQueue) :
    List Entry → List Entry → Prop
  | added (now delay interval : Int) (same : next = s.addTimer now delay interval) :
      Move s event next [] [⟨.stored, s.newTask now delay interval⟩]
  | cancelled (id : UInt64) (called : event = .cancelTimer id) (same : next = s.cancelTimer id) :
      Move s event next [] []
  | collected (now : Int) (order : List TimerTask) (due : ∀ task ∈ order, task.nextRun ≤ now)
      (timerFlags : next.timerFlags = (order.foldl (collect s.flags) (s.timerFlags, [])).1)
      (flags : next.flags = s.flags) (nextTimerId : next.nextTimerId = s.nextTimerId)
      (registered : next.registered = s.registered) (runs : next.runs = s.runs)
      (clock : next.clock = now) :
      Move s event next (order.map (.mk .stored))
        ((order.filter fun task => !s.flags task.serial).map (.mk (.waiting now)))
  | started (now : Int) (task : TimerTask) (quiet : Quiet s next)
      (runs : next.runs = s.runs ++ [(task.serial, now)]) :
      Move s event next [⟨.waiting now, task⟩] [⟨.running, task⟩]
  | renewed (task : TimerTask) (periodic : 0 < task.interval) (quiet : Quiet s next)
      (runs : next.runs = s.runs) : Move s event next [⟨.running, task⟩] [⟨.stored, task.renewed⟩]
  | finished (task : TimerTask) (once : ¬ 0 < task.interval) (quiet : Quiet s next)
      (runs : next.runs = s.runs) : Move s event next [⟨.running, task⟩] []
  | ended (quiet : Quiet s next) (runs : next.runs = s.runs) : Move s event next [] []

/-- The two lists of entries differ by what a step takes away and brings. -/
def Exchange (before behind gone came : List Entry) : Prop :=
  ∃ rest, before.Perm (gone ++ rest) ∧ behind.Perm (came ++ rest)

/-! ## Collecting -/

section Collect

variable {flags : Nat → Bool} {collected : (UInt64 → Option Nat) × List TimerTask} {id : UInt64}

theorem collect_expired (flags : Nat → Bool)
    (collected : (UInt64 → Option Nat) × List TimerTask) (order : List TimerTask) :
    (order.foldl (collect flags) collected).2 =
      collected.2 ++ order.filter fun task => !flags task.serial := by
  induction order generalizing collected with
  | nil => exact (List.append_nil _).symm
  | cons task order ih =>
      rw [List.foldl_cons, ih, List.filter_cons, collect]
      cases flags task.serial with
      | true => rfl
      | false =>
          rw [if_neg Bool.false_ne_true]
          split
          · simp
          · simp

/-- The entry of an id stays when no task with the id loses its entry. -/
theorem collect_keeps (order : List TimerTask)
    (safe : ∀ task ∈ order, flags task.serial = true ∨ task.interval = 0 → task.id ≠ id) :
    (order.foldl (collect flags) collected).1 id = collected.1 id := by
  induction order generalizing collected with
  | nil => rfl
  | cons task order ih =>
      have here := safe task (List.mem_cons_self ..)
      have later := fun other member => safe other (List.mem_cons_of_mem _ member)
      rw [List.foldl_cons, ih later, collect]
      split
      · next set => exact Function.update_of_ne (here (.inl set)).symm ..
      · split
        · next once => exact Function.update_of_ne (here (.inr once)).symm ..
        · rfl

theorem entry_of_erased {entries : UInt64 → Option Nat} {gone : UInt64} {serial : Nat}
    (entry : Function.update entries gone none id = some serial) : entries id = some serial := by
  by_cases same : id = gone
  · rw [same, Function.update_self] at entry
    cases entry
  · rwa [Function.update_of_ne same] at entry

/-- No entry is new. -/
theorem collect_entry (order : List TimerTask) {serial : Nat}
    (entry : (order.foldl (collect flags) collected).1 id = some serial) :
    collected.1 id = some serial := by
  induction order generalizing collected with
  | nil => exact entry
  | cons task order ih =>
      have later := ih entry
      rw [collect] at later
      split at later
      · exact entry_of_erased later
      · split at later
        · exact entry_of_erased later
        · exact later

end Collect

/-! ## Steps move tasks -/

section Moves

variable {s next : TimerQueue} {event : Event} {serial : Nat}

/-- A cancel changes nothing but flags. -/
theorem cancelTimer_eq (s : TimerQueue) (id : UInt64) :
    s.cancelTimer id = { s with flags := (s.cancelTimer id).flags } := by
  rw [cancelTimer]
  split
  · rfl
  · rfl

/-- Outside of the passes every task is in the heap. -/
theorem held_idle (idle : s.passes = []) : s.held = s.timers.map (.mk .stored) := by
  rw [held, idle, List.flatMap_nil, List.append_nil]

theorem held_cancelTimer (s : TimerQueue) (id : UInt64) : (s.cancelTimer id).held = s.held := by
  rw [s.cancelTimer_eq id]
  rfl

theorem cancelTimer_registered (s : TimerQueue) (id : UInt64) :
    (s.cancelTimer id).registered = s.registered := by
  rw [s.cancelTimer_eq id]

theorem cancelTimer_timerFlags (s : TimerQueue) (id : UInt64) :
    (s.cancelTimer id).timerFlags = s.timerFlags := by
  rw [s.cancelTimer_eq id]

theorem cancelTimer_runs (s : TimerQueue) (id : UInt64) : (s.cancelTimer id).runs = s.runs := by
  rw [s.cancelTimer_eq id]

/-- The flags that are set after a cancel. -/
theorem cancelTimer_flags (s : TimerQueue) (id : UInt64) (serial : Nat) :
    (s.cancelTimer id).flags serial = true ↔
      s.flags serial = true ∨ s.timerFlags id = some serial := by
  rw [cancelTimer]
  split
  · next missing => simp [missing]
  · next other found =>
      rw [found, Option.some_inj]
      by_cases same : serial = other
      · simp [same]
      · simp [same, Ne.symm same]

theorem held_collected (s : TimerQueue) (now : Int) (order left : List TimerTask) :
    (s.collected now order left).held =
      left.map (.mk .stored) ++
        ((order.filter fun task => !s.flags task.serial).map (.mk (.waiting now)) ++
          s.passes.flatMap Pass.held) := by
  rw [held, collected, List.flatMap_cons, Pass.held, collect_expired]
  rfl

/-- A pass pops the due tasks and leaves the others in the heap. -/
theorem processTimers_eq {now : Int} {order : List TimerTask}
    (taken : step s (.processTimers now order) = some next) :
    ∃ left, PriorityQueue.drain? TimerTask.nextRun now order s.timers = some left ∧
      next = s.collected now order left := by
  cases steps_of_step taken with
  | added registers => cases registers
  | collected _ _ left _ drained => exact ⟨left, drained, rfl⟩

/-- A task that runs, and the other tasks. -/
theorem held_running {now : Int} {task : TimerTask} {rest : List TimerTask} {outer : List Pass}
    (stack : s.passes = ⟨now, some task, rest⟩ :: outer) :
    s.held.Perm (⟨.running, task⟩ :: (s.timers.map (.mk .stored) ++
      (rest.map (.mk (.waiting now)) ++ outer.flatMap Pass.held))) := by
  rw [held, stack]
  exact List.perm_middle

/-- Every step is a move. -/
theorem step_moves (taken : step s event = some next) :
    ∃ gone came, Move s event next gone came ∧ Exchange s.held next.held gone came := by
  cases steps_of_step taken with
  | added registers now delay interval =>
      exact ⟨_, _, .added now delay interval rfl, s.held, .refl _, .refl _⟩
  | cancelled id =>
      refine ⟨_, _, .cancelled id rfl rfl, s.held, .refl _, ?_⟩
      rw [held_cancelTimer]
      exact .refl _
  | collected now order left reads drained =>
      refine ⟨_, _, .collected now order (fun task => PriorityQueue.drain?_due drained)
        rfl rfl rfl rfl rfl rfl, left.map (.mk .stored) ++ s.passes.flatMap Pass.held, ?_, ?_⟩
      · rw [held, ← List.append_assoc, ← List.map_append]
        exact ((PriorityQueue.drain?_perm drained).map _).append_right _
      · rw [held_collected]
        exact List.perm_append_comm_assoc ..
  | started now task rest outer stack =>
      refine ⟨_, _, .started now task ⟨rfl, rfl, rfl, rfl⟩ rfl,
        s.timers.map (.mk .stored) ++ (rest.map (.mk (.waiting now)) ++ outer.flatMap Pass.held),
        ?_, ?_⟩
      · rw [held, stack]
        exact List.perm_middle
      · exact List.perm_middle
  | renewed threw now task rest outer stack periodic =>
      exact ⟨_, _, .renewed task periodic ⟨rfl, rfl, rfl, rfl⟩ rfl, _, held_running stack, .refl _⟩
  | finished threw now task rest outer stack once =>
      exact ⟨_, _, .finished task once ⟨rfl, rfl, rfl, rfl⟩ rfl, _, held_running stack, .refl _⟩
  | ended now outer stack =>
      refine ⟨_, _, .ended ⟨rfl, rfl, rfl, rfl⟩ rfl, s.held, .refl _, ?_⟩
      rw [held, held, stack]
      exact .refl _

/-- What a task keeps for good. -/
def Entry.origin (entry : Entry) : Nat × UInt64 × Int :=
  (entry.task.serial, entry.task.id, entry.task.interval)

/-- A step either adds a task or brings only tasks that it has taken away. -/
theorem Move.added_or_origin {gone came : List Entry} (move : Move s event next gone came) :
    (∃ now delay interval, next = s.addTimer now delay interval ∧ gone = [] ∧
        came = [⟨.stored, s.newTask now delay interval⟩]) ∨
      (came.map Entry.origin).Sublist (gone.map Entry.origin) ∧
        next.registered = s.registered ∧ next.nextTimerId = s.nextTimerId := by
  cases move with
  | added now delay interval same => exact .inl ⟨now, delay, interval, same, rfl, rfl⟩
  | cancelled id called same =>
      cases same
      rw [s.cancelTimer_eq id]
      exact .inr ⟨.refl _, rfl, rfl⟩
  | collected now order due timerFlags flags nextTimerId registered runs clock =>
      refine .inr ⟨?_, registered, nextTimerId⟩
      rw [List.map_map, List.map_map]
      exact List.filter_sublist.map _
  | started now task quiet runs => exact .inr ⟨.refl _, quiet.registered, quiet.nextTimerId⟩
  | renewed task periodic quiet runs => exact .inr ⟨.refl _, quiet.registered, quiet.nextTimerId⟩
  | finished task once quiet runs =>
      exact .inr ⟨List.nil_sublist _, quiet.registered, quiet.nextTimerId⟩
  | ended quiet runs => exact .inr ⟨.refl _, quiet.registered, quiet.nextTimerId⟩

theorem registered_le (taken : step s event = some next) : s.registered ≤ next.registered := by
  obtain ⟨gone, came, move, _⟩ := step_moves taken
  rcases move.added_or_origin with ⟨now, delay, interval, rfl, _⟩ | ⟨_, same, _⟩
  · exact Nat.le_succ _
  · exact Nat.le_of_eq same.symm

theorem registered_le_run {events : List Event} {final : TimerQueue}
    (reached : run? step s events = some final) : s.registered ≤ final.registered := by
  have kept : ∀ (middle : TimerQueue) event next, s.registered ≤ middle.registered →
      step middle event = some next → s.registered ≤ next.registered :=
    fun middle event next before taken => before.trans (registered_le taken)
  exact run?_invariant kept (Nat.le_refl _) reached

/-- The clock is not set back. -/
theorem clock_le (taken : step s event = some next) : s.clock ≤ next.clock := by
  cases steps_of_step taken with
  | added registers now delay interval reads => exact reads.1
  | cancelled id =>
      rw [s.cancelTimer_eq id]
  | collected now order left reads => exact reads.1
  | started => exact le_refl s.clock
  | renewed => exact le_refl s.clock
  | finished => exact le_refl s.clock
  | ended => exact le_refl s.clock

theorem clock_le_run {events : List Event} {final : TimerQueue}
    (reached : run? step s events = some final) : s.clock ≤ final.clock := by
  have kept : ∀ (middle : TimerQueue) event next, s.clock ≤ middle.clock →
      step middle event = some next → s.clock ≤ next.clock :=
    fun middle event next before taken => before.trans (clock_le taken)
  exact run?_invariant kept (le_refl _) reached

theorem runsOf_of_runs (same : next.runs = s.runs) : next.runsOf serial = s.runsOf serial := by
  rw [runsOf, same, runsOf]

theorem runsOf_of_started {now : Int} {task : TimerTask}
    (runs : next.runs = s.runs ++ [(task.serial, now)]) :
    next.runsOf serial = s.runsOf serial ++ if task.serial = serial then [now] else [] := by
  rw [runsOf, runs, List.filter_append, List.map_append, runsOf]
  by_cases own : task.serial = serial
  · simp [own]
  · simp [own]

/-- A step sets no flag, except that of a new registration and that of a cancel. -/
theorem Move.flags_cases {gone came : List Entry} (move : Move s event next gone came) :
    (∃ now delay interval, next = s.addTimer now delay interval) ∨
      (∃ id, event = .cancelTimer id ∧ next = s.cancelTimer id) ∨ next.flags = s.flags := by
  cases move with
  | added now delay interval same => exact .inl ⟨now, delay, interval, same⟩
  | cancelled id called same => exact .inr (.inl ⟨id, called, same⟩)
  | collected now order due timerFlags flags nextTimerId registered runs clock =>
      exact .inr (.inr flags)
  | started now task quiet runs => exact .inr (.inr quiet.flags)
  | renewed task periodic quiet runs => exact .inr (.inr quiet.flags)
  | finished task once quiet runs => exact .inr (.inr quiet.flags)
  | ended quiet runs => exact .inr (.inr quiet.flags)

/-- A step runs no callback, except that of a task it has taken from a pass. -/
theorem Move.runs_cases {gone came : List Entry} (move : Move s event next gone came) :
    next.runs = s.runs ∨
      ∃ now task, gone = [⟨.waiting now, task⟩] ∧ next.runs = s.runs ++ [(task.serial, now)] := by
  cases move with
  | added now delay interval same =>
      cases same
      exact .inl rfl
  | cancelled id called same =>
      cases same
      exact .inl (s.cancelTimer_runs id)
  | collected now order due timerFlags flags nextTimerId registered runs clock => exact .inl runs
  | started now task quiet runs => exact .inr ⟨now, task, rfl, runs⟩
  | renewed task periodic quiet runs => exact .inl runs
  | finished task once quiet runs => exact .inl runs
  | ended quiet runs => exact .inl runs

/-- What a step makes of a task. -/
inductive Fate (s next : TimerQueue) (entry : Entry) : Prop
  | stays (held : entry ∈ next.held)
  | collected (now : Int) (place : entry.place = .stored)
      (kept : s.flags entry.task.serial = false → ⟨.waiting now, entry.task⟩ ∈ next.held)
      (order : List TimerTask) (popped : entry.task ∈ order)
      (timerFlags : next.timerFlags = (order.foldl (collect s.flags) (s.timerFlags, [])).1)
  | started (now : Int) (place : entry.place = .waiting now)
      (runs : next.runs = s.runs ++ [(entry.task.serial, now)])
      (held : ⟨.running, entry.task⟩ ∈ next.held)
  | finished (place : entry.place = .running) (flags : next.flags = s.flags)
      (kept : 0 < entry.task.interval → ⟨.stored, entry.task.renewed⟩ ∈ next.held)

theorem step_fate {entry : Entry} (taken : step s event = some next) (member : entry ∈ s.held) :
    Fate s next entry := by
  obtain ⟨gone, came, move, rest, before, behind⟩ := step_moves taken
  have brought : ∀ {other}, other ∈ came → other ∈ next.held := fun new =>
    behind.mem_iff.mpr (List.mem_append_left _ new)
  rcases List.mem_append.mp (before.mem_iff.mp member) with taken_away | stays
  · cases move with
    | added now delay interval same => cases taken_away
    | cancelled id called same => cases taken_away
    | collected now order due timerFlags flags nextTimerId registered runs clock =>
        obtain ⟨task, popped, rfl⟩ := List.mem_map.mp taken_away
        refine .collected now rfl (fun unset => brought (List.mem_map_of_mem ?_)) order popped
          timerFlags
        exact List.mem_filter.mpr ⟨popped, by rw [unset]; rfl⟩
    | started now task quiet runs =>
        cases List.mem_singleton.mp taken_away
        exact .started now rfl runs (brought (List.mem_singleton_self _))
    | renewed task periodic quiet runs =>
        cases List.mem_singleton.mp taken_away
        exact .finished rfl quiet.flags fun _ => brought (List.mem_singleton_self _)
    | finished task once quiet runs =>
        cases List.mem_singleton.mp taken_away
        exact .finished rfl quiet.flags fun periodic => absurd periodic once
    | ended quiet runs => cases taken_away
  · exact .stays (behind.mem_iff.mpr (List.mem_append_right _ stays))

/-- A step makes no entry but that of a new registration. -/
theorem Move.entry_before {gone came : List Entry} (move : Move s event next gone came)
    {id : UInt64} (entry : next.timerFlags id = some serial) :
    s.timerFlags id = some serial ∨
      id = s.nextTimerId ∧ serial = s.registered ∧ next.registered = s.registered + 1 := by
  cases move with
  | added now delay interval same =>
      cases same
      by_cases new : id = s.nextTimerId
      · rw [new] at entry
        cases (Function.update_self ..).symm.trans entry
        exact .inr ⟨new, rfl, rfl⟩
      · exact .inl ((Function.update_of_ne new ..).symm.trans entry)
  | cancelled id called same =>
      cases same
      rw [cancelTimer_timerFlags] at entry
      exact .inl entry
  | collected now order due timerFlags flags nextTimerId registered runs clock =>
      rw [timerFlags] at entry
      exact .inl (collect_entry order entry)
  | started now task quiet runs => exact .inl (quiet.timerFlags ▸ entry)
  | renewed task periodic quiet runs => exact .inl (quiet.timerFlags ▸ entry)
  | finished task once quiet runs => exact .inl (quiet.timerFlags ▸ entry)
  | ended quiet runs => exact .inl (quiet.timerFlags ▸ entry)

end Moves

end TimerQueue

end RpcFramework
