import Mathlib.Algebra.GroupWithZero.Nat
import Mathlib.Data.List.Nodup
import Mathlib.Logic.Function.Basic

/-!
# Workers with a stack and a queue

Each of several workers has a stack of what it is in the middle of, the innermost
task first, and a queue of what it does when the stack is empty.  A task that is
given to a worker by itself goes on the stack, one that is given by another worker
goes to the end of the queue.  A failure unwinds the stack down to a task that
catches it.

How many tasks of a kind are pending, over all workers, does not depend on where
they are: a task adds one when it is given and takes one when it is popped.
-/

/-- What a worker is in the middle of, and what waits. -/
structure Worker (Task : Type) where
  stack : List Task
  queue : List Task

namespace Worker

variable {Task : Type}

def idle : Worker Task := ⟨[], []⟩

def tasks (worker : Worker Task) : List Task := worker.stack ++ worker.queue

end Worker

abbrev Workers (Id Task : Type) := Id → Worker Task

namespace Workers

variable {Id Task : Type} [DecidableEq Id]

def push (workers : Workers Id Task) (i : Id) (tasks : List Task) : Workers Id Task :=
  Function.update workers i ⟨tasks ++ (workers i).stack, (workers i).queue⟩

def enqueue (workers : Workers Id Task) (i : Id) (task : Task) : Workers Id Task :=
  Function.update workers i ⟨(workers i).stack, (workers i).queue ++ [task]⟩

/-- Give a task to a worker, from the worker `current` or from outside. -/
def give (workers : Workers Id Task) (current : Option Id) (i : Id) (task : Task) :
    Workers Id Task :=
  if current = some i then workers.push i [task] else workers.enqueue i task

/-- A worker with an empty stack takes up the first task of its queue. -/
def start (workers : Workers Id Task) (i : Id) : Option (Workers Id Task) :=
  match (workers i).stack, (workers i).queue with
  | [], task :: rest => some (Function.update workers i ⟨[task], rest⟩)
  | _, _ => none

/-- The top of the stack of a worker, and the workers without it. -/
def pop (workers : Workers Id Task) (i : Id) : Option (Task × Workers Id Task) :=
  match (workers i).stack with
  | [] => none
  | task :: rest => some (task, Function.update workers i ⟨rest, (workers i).queue⟩)

/-- Drop the tasks on the stack of a worker that do not catch a failure. -/
def unwind (workers : Workers Id Task) (i : Id) (catches : Task → Bool) : Workers Id Task :=
  Function.update workers i
    ⟨(workers i).stack.dropWhile fun task => !catches task, (workers i).queue⟩

/-! ## What the operations do to a worker -/

section Operations

variable {workers next : Workers Id Task} {i j : Id}

@[simp]
theorem push_self (tasks : List Task) :
    workers.push i tasks i = ⟨tasks ++ (workers i).stack, (workers i).queue⟩ :=
  Function.update_self i _ workers

theorem push_of_ne (differs : j ≠ i) (tasks : List Task) : workers.push i tasks j = workers j :=
  Function.update_of_ne differs _ workers

@[simp]
theorem enqueue_self (task : Task) :
    workers.enqueue i task i = ⟨(workers i).stack, (workers i).queue ++ [task]⟩ :=
  Function.update_self i _ workers

theorem enqueue_of_ne (differs : j ≠ i) (task : Task) : workers.enqueue i task j = workers j :=
  Function.update_of_ne differs _ workers

theorem start_eq_some (started : workers.start i = some next) : ∃ task rest,
    (workers i).stack = [] ∧ (workers i).queue = task :: rest ∧
      next = Function.update workers i ⟨[task], rest⟩ := by
  unfold start at started
  split at started
  · next task rest stack queue =>
      cases started
      exact ⟨task, rest, stack, queue, rfl⟩
  · cases started

theorem pop_eq_some {task : Task} (popped : workers.pop i = some (task, next)) : ∃ rest,
    (workers i).stack = task :: rest ∧
      next = Function.update workers i ⟨rest, (workers i).queue⟩ := by
  unfold pop at popped
  split at popped
  · cases popped
  · next rest stack =>
      cases popped
      exact ⟨rest, stack, rfl⟩

end Operations

/-! ## Sums over the workers -/

/-- A quantity of the workers, summed up. -/
def total (ids : List Id) (workers : Workers Id Task) (f : Worker Task → Nat) : Nat :=
  (ids.map fun i => f (workers i)).sum

section Total

variable {ids : List Id} {workers next : Workers Id Task} {i : Id} {f g : Worker Task → Nat}

omit [DecidableEq Id] in
theorem total_eq_zero_iff : total ids workers f = 0 ↔ ∀ i ∈ ids, f (workers i) = 0 := by
  induction ids with
  | nil => simp [total]
  | cons first rest ih =>
      rw [List.forall_mem_cons, ← ih]
      exact Nat.add_eq_zero_iff

omit [DecidableEq Id] in
theorem total_mono (le : ∀ worker, f worker ≤ g worker) :
    total ids workers f ≤ total ids workers g := by
  induction ids with
  | nil => exact Nat.le_refl 0
  | cons first rest ih => exact Nat.add_le_add (le _) ih

theorem total_update_not_mem (missing : i ∉ ids) (worker : Worker Task) :
    total ids (Function.update workers i worker) f = total ids workers f := by
  unfold total
  congr 1
  apply List.map_congr_left
  intro j member
  have differs : j ≠ i := by
    rintro rfl
    exact missing member
  rw [Function.update_of_ne differs]

/-- What one worker has more or less is what there is more or less of in all. -/
theorem total_update (distinct : ids.Nodup) (member : i ∈ ids) (worker : Worker Task) :
    total ids (Function.update workers i worker) f + f (workers i) =
      total ids workers f + f worker := by
  induction ids with
  | nil => cases member
  | cons first rest ih =>
      obtain ⟨fresh, distinctRest⟩ := List.nodup_cons.mp distinct
      rcases List.mem_cons.mp member with rfl | later
      · have others := @total_update_not_mem Id Task _ rest workers i f fresh worker
        unfold total at others ⊢
        rw [List.map_cons, List.map_cons, List.sum_cons, List.sum_cons, others,
          Function.update_self]
        omega
      · have differs : first ≠ i := by
          rintro rfl
          exact fresh later
        have ih := ih distinctRest later
        unfold total at ih ⊢
        rw [List.map_cons, List.map_cons, List.sum_cons, List.sum_cons,
          Function.update_of_ne differs]
        omega

end Total

/-- The number of pending tasks with a property. -/
def pending (ids : List Id) (workers : Workers Id Task) (p : Task → Bool) : Nat :=
  total ids workers fun worker => worker.tasks.countP p

section Pending

variable {ids : List Id} {workers next : Workers Id Task} {i : Id} {p : Task → Bool}

omit [DecidableEq Id] in
theorem pending_idle (empty : ∀ i ∈ ids, (workers i).tasks = []) :
    pending ids workers p = 0 := by
  refine total_eq_zero_iff.mpr fun i member => ?_
  rw [empty i member, List.countP_nil]

omit [DecidableEq Id] in
theorem exists_of_pending (some_left : 0 < pending ids workers p) :
    ∃ i ∈ ids, ∃ task ∈ (workers i).tasks, p task = true := by
  by_contra missing
  refine Nat.ne_of_gt some_left (total_eq_zero_iff.mpr fun i member => ?_)
  refine List.countP_eq_zero.mpr fun task found holds => ?_
  exact missing ⟨i, member, task, found, holds⟩

omit [DecidableEq Id] in
theorem pending_pos {task : Task} (member : i ∈ ids) (found : task ∈ (workers i).tasks)
    (holds : p task = true) : 0 < pending ids workers p := by
  by_contra none_left
  have zero := total_eq_zero_iff.mp (Nat.eq_zero_of_not_pos none_left) i member
  exact List.countP_eq_zero.mp zero task found holds

theorem pending_update (distinct : ids.Nodup) (member : i ∈ ids) (worker : Worker Task) :
    pending ids (Function.update workers i worker) p + (workers i).tasks.countP p =
      pending ids workers p + worker.tasks.countP p :=
  total_update distinct member worker

theorem pending_push (distinct : ids.Nodup) (member : i ∈ ids) (tasks : List Task) :
    pending ids (workers.push i tasks) p = pending ids workers p + tasks.countP p := by
  have changed := @pending_update Id Task _ ids workers i p distinct member
    ⟨tasks ++ (workers i).stack, (workers i).queue⟩
  unfold Worker.tasks at changed
  simp only [List.countP_append] at changed
  unfold push
  omega

theorem pending_enqueue (distinct : ids.Nodup) (member : i ∈ ids) (task : Task) :
    pending ids (workers.enqueue i task) p = pending ids workers p + [task].countP p := by
  have changed := @pending_update Id Task _ ids workers i p distinct member
    ⟨(workers i).stack, (workers i).queue ++ [task]⟩
  unfold Worker.tasks at changed
  simp only [List.countP_append] at changed
  unfold enqueue
  omega

theorem pending_give (distinct : ids.Nodup) (member : i ∈ ids) (current : Option Id)
    (task : Task) :
    pending ids (workers.give current i task) p = pending ids workers p + [task].countP p := by
  unfold give
  split
  · exact pending_push distinct member [task]
  · exact pending_enqueue distinct member task

theorem pending_start (distinct : ids.Nodup) (member : i ∈ ids)
    (started : workers.start i = some next) : pending ids next p = pending ids workers p := by
  obtain ⟨task, rest, stack, queue, rfl⟩ := start_eq_some started
  have changed := @pending_update Id Task _ ids workers i p distinct member ⟨[task], rest⟩
  unfold Worker.tasks at changed
  rw [stack, queue] at changed
  exact Nat.add_right_cancel changed

theorem pending_pop (distinct : ids.Nodup) (member : i ∈ ids) {task : Task}
    (popped : workers.pop i = some (task, next)) :
    pending ids workers p = pending ids next p + [task].countP p := by
  obtain ⟨rest, stack, rfl⟩ := pop_eq_some popped
  have changed := @pending_update Id Task _ ids workers i p distinct member
    ⟨rest, (workers i).queue⟩
  unfold Worker.tasks at changed
  simp only [stack, List.countP_append, List.countP_cons] at changed
  rw [List.countP_cons, List.countP_nil]
  omega

theorem pending_unwind (distinct : ids.Nodup) (member : i ∈ ids) (catches : Task → Bool) :
    pending ids workers p = pending ids (workers.unwind i catches) p +
      ((workers i).stack.takeWhile fun task => !catches task).countP p := by
  have changed := @pending_update Id Task _ ids workers i p distinct member
    ⟨(workers i).stack.dropWhile fun task => !catches task, (workers i).queue⟩
  have whole := congrArg (List.countP p)
    ((workers i).stack.takeWhile_append_dropWhile (p := fun task => !catches task))
  unfold Worker.tasks at changed
  simp only [List.countP_append] at changed whole
  unfold unwind
  omega

end Pending

/-- What the tasks weigh in all; a task that still has to be taken up weighs one more. -/
def load (ids : List Id) (workers : Workers Id Task) (weight : Task → Nat) : Nat :=
  total ids workers fun worker =>
    (worker.stack.map weight).sum + (worker.queue.map (weight · + 1)).sum

section Load

variable {ids : List Id} {workers next : Workers Id Task} {i : Id} {weight lighter : Task → Nat}

theorem load_update (distinct : ids.Nodup) (member : i ∈ ids) (worker : Worker Task) :
    load ids (Function.update workers i worker) weight +
        (((workers i).stack.map weight).sum + ((workers i).queue.map (weight · + 1)).sum) =
      load ids workers weight +
        ((worker.stack.map weight).sum + (worker.queue.map (weight · + 1)).sum) :=
  total_update distinct member worker

theorem load_push (distinct : ids.Nodup) (member : i ∈ ids) (tasks : List Task) :
    load ids (workers.push i tasks) weight = load ids workers weight + (tasks.map weight).sum := by
  have changed := @load_update Id Task _ ids workers i weight distinct member
    ⟨tasks ++ (workers i).stack, (workers i).queue⟩
  simp only [List.map_append, List.sum_append] at changed
  unfold push
  omega

theorem load_enqueue (distinct : ids.Nodup) (member : i ∈ ids) (task : Task) :
    load ids (workers.enqueue i task) weight = load ids workers weight + (weight task + 1) := by
  have changed := @load_update Id Task _ ids workers i weight distinct member
    ⟨(workers i).stack, (workers i).queue ++ [task]⟩
  simp only [List.map_append, List.sum_append, List.map_cons, List.map_nil, List.sum_cons,
    List.sum_nil] at changed
  unfold enqueue
  omega

theorem load_give (distinct : ids.Nodup) (member : i ∈ ids) (current : Option Id) (task : Task) :
    load ids (workers.give current i task) weight ≤ load ids workers weight + (weight task + 1) := by
  unfold give
  split
  · rw [load_push distinct member]
    simp
  · exact Nat.le_of_eq (load_enqueue distinct member task)

theorem load_start (distinct : ids.Nodup) (member : i ∈ ids)
    (started : workers.start i = some next) :
    load ids next weight + 1 = load ids workers weight := by
  obtain ⟨task, rest, stack, queue, rfl⟩ := start_eq_some started
  have changed := @load_update Id Task _ ids workers i weight distinct member ⟨[task], rest⟩
  simp only [stack, queue, List.map_cons, List.map_nil, List.sum_cons, List.sum_nil] at changed
  omega

theorem load_pop (distinct : ids.Nodup) (member : i ∈ ids) {task : Task}
    (popped : workers.pop i = some (task, next)) :
    load ids workers weight = load ids next weight + weight task := by
  obtain ⟨rest, stack, rfl⟩ := pop_eq_some popped
  have changed := @load_update Id Task _ ids workers i weight distinct member
    ⟨rest, (workers i).queue⟩
  simp only [stack, List.map_cons, List.sum_cons] at changed
  omega

theorem load_unwind_le (distinct : ids.Nodup) (member : i ∈ ids) (catches : Task → Bool) :
    load ids (workers.unwind i catches) weight ≤ load ids workers weight := by
  have changed := @load_update Id Task _ ids workers i weight distinct member
    ⟨(workers i).stack.dropWhile fun task => !catches task, (workers i).queue⟩
  have whole := congrArg (fun tasks => (tasks.map weight).sum)
    ((workers i).stack.takeWhile_append_dropWhile (p := fun task => !catches task))
  simp only [List.map_append, List.sum_append] at changed whole
  unfold unwind
  omega

theorem sum_map_mono (le : ∀ task, lighter task ≤ weight task) (tasks : List Task) :
    (tasks.map lighter).sum ≤ (tasks.map weight).sum := by
  induction tasks with
  | nil => exact Nat.le_refl 0
  | cons task tasks ih => exact Nat.add_le_add (le task) ih

omit [DecidableEq Id] in
theorem load_mono (le : ∀ task, lighter task ≤ weight task) :
    load ids workers lighter ≤ load ids workers weight :=
  total_mono fun worker => Nat.add_le_add (sum_map_mono le worker.stack)
    (sum_map_mono (fun task => Nat.succ_le_succ (le task)) worker.queue)

end Load

/-! ## Where a task can be -/

section Places

variable {workers next : Workers Id Task} {i j : Id} {task : Task}

theorem mem_start (started : workers.start i = some next) (member : task ∈ (next j).tasks) :
    task ∈ (workers j).tasks := by
  obtain ⟨first, rest, stack, queue, rfl⟩ := start_eq_some started
  by_cases same : j = i
  · subst same
    rw [Function.update_self] at member
    rw [Worker.tasks, stack, queue]
    exact member
  · rw [Function.update_of_ne same] at member
    exact member

theorem exists_of_start (started : workers.start i = some next) :
    ∃ task, task ∈ (workers i).tasks := by
  obtain ⟨first, rest, stack, queue, rfl⟩ := start_eq_some started
  exact ⟨first, by simp [Worker.tasks, queue]⟩

theorem mem_pop {top : Task} (popped : workers.pop i = some (top, next)) :
    top ∈ (workers i).tasks ∧ ∀ j, ∀ task ∈ (next j).tasks, task ∈ (workers j).tasks := by
  obtain ⟨rest, stack, rfl⟩ := pop_eq_some popped
  constructor
  · rw [Worker.tasks, stack]
    exact List.mem_cons_self ..
  · intro j task member
    by_cases same : j = i
    · subst same
      rw [Function.update_self] at member
      rw [Worker.tasks, stack]
      exact List.mem_cons_of_mem _ member
    · rw [Function.update_of_ne same] at member
      exact member

theorem mem_unwind {catches : Task → Bool}
    (member : task ∈ (workers.unwind i catches j).tasks) : task ∈ (workers j).tasks := by
  by_cases same : j = i
  · subst same
    rw [unwind, Function.update_self, Worker.tasks] at member
    refine List.mem_append.mpr ((List.mem_append.mp member).imp_left fun kept => ?_)
    exact (List.dropWhile_suffix _).subset kept
  · rw [unwind, Function.update_of_ne same] at member
    exact member

/-- If an exception does not skip a frame that it could skip, it skips none of those behind. -/
theorem dropWhile_append_of_not_mem {dropped : Task → Bool} {front rest : List Task}
    (could : dropped task = true) (kept : task ∉ (front ++ task :: rest).takeWhile dropped) :
    ∃ left, (front ++ task :: rest).dropWhile dropped = left ++ task :: rest := by
  induction front with
  | nil =>
      rw [List.nil_append, List.takeWhile_cons_of_pos could] at kept
      exact absurd (List.mem_cons_self ..) kept
  | cons first front ih =>
      rw [List.cons_append] at kept ⊢
      by_cases drops : dropped first = true
      · rw [List.takeWhile_cons_of_pos drops] at kept
        rw [List.dropWhile_cons_of_pos drops]
        exact ih fun later => kept (List.mem_cons_of_mem _ later)
      · rw [List.dropWhile_cons_of_neg drops]
        exact ⟨first :: front, rfl⟩

end Places

end Workers
