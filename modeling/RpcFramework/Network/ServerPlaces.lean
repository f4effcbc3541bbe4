import Mathlib.Data.List.Nodup
import Mathlib.Data.Nat.Digits.Defs
import RpcFramework.Network.ServerTasks

/-!
# Where the tasks of a server are

A function of a connection has to run on the loop of the connection, and the
table of the server belongs to the base loop.  Every task that the functions
queue or call goes to the loop that it has to run on, and the names of the
connections tell them apart.  What waits on a stack behind a callback of the user
is never the start of a function, only the rest of one.
-/

namespace RpcFramework

open TcpConnection

namespace TcpServer

theorem nodup_loops (s : TcpServer) : s.loops.Nodup := by
  refine List.nodup_cons.mpr ⟨?_, ?_⟩
  · intro member
    obtain ⟨i, _, impossible⟩ := List.mem_map.mp member
    cases impossible
  · exact List.nodup_range.map fun _ _ same => ServerLoop.io.inj same

theorem base_mem_loops (s : TcpServer) : ServerLoop.base ∈ s.loops := List.mem_cons_self ..

theorem work_push (s : TcpServer) (loop : ServerLoop) (tasks : List LoopTask) :
    (s.push loop tasks).work = s.work.push loop tasks := rfl

theorem work_queueInLoop (s : TcpServer) (loop : ServerLoop) (task : LoopTask) :
    (s.queueInLoop loop task).work = s.work.enqueue loop task := rfl

theorem connName_injective {name : List Char} (short : name.length ≤ 15) {first second : ConnId}
    (few : first < 2 ^ 31) (alsoFew : second < 2 ^ 31)
    (same : connName name first = connName name second) : first = second := by
  have whole : ∀ {id : ConnId}, id < 2 ^ 31 →
      ('-' :: name ++ '#' :: Nat.toDigits 10 id).take 31 =
        '-' :: name ++ '#' :: Nat.toDigits 10 id := by
    intro id small
    have digits := Nat.toDigits_length 10 id 10 (by decide) (Nat.lt_trans small (by decide))
    apply List.take_of_length_le
    simp only [List.cons_append, List.length_cons, List.length_append]
    omega
  unfold connName at same
  rw [whole few, whole alsoFew] at same
  have tails := List.append_cancel_left (List.append_cancel_left same)
  have read : ∀ id, Nat.ofDigitChars 10 (Nat.toDigits 10 id) 0 = id := fun _ =>
    Nat.ofDigitChars_toDigits (by decide) (by decide)
  rw [← read first, (List.cons.inj tails).2, read]

/-! ## Places -/

/-- A loop of the server may have the task: it is the loop that the task has to run on, and
the connection of the task has been made. -/
structure Fits (s : TcpServer) (loop : ServerLoop) (task : LoopTask) : Prop where
  member : loop ∈ s.loops
  home : (s.home task).getD loop = loop
  owner : ∀ c kind, task.kind = some (c, kind) → s.Made c

/-- The tasks are on their loops, and the table has the connections under their names. -/
structure Placed (s : TcpServer) : Prop where
  short : s.name.length ≤ 15
  first : 1 ≤ s.nextConnId
  few : s.nextConnId < 2 ^ 31
  next : s.threadPool.loops = 0 ∨ s.threadPool.next < s.threadPool.loops
  homes : ∀ c, s.Made c → (s.conns c).loop ∈ s.loops
  fits : ∀ loop, ∀ task ∈ (s.work loop).tasks, s.Fits loop task
  waits : ∀ loop, ∀ task ∈ (s.work loop).stack.tail, task.Waits
  late : ∀ c ∈ s.shutdowns, s.Made c
  table : ∀ entry ∈ s.connections.entries, s.Made entry.2 ∧ entry.1 = connName s.name entry.2

section Places

variable {s t : TcpServer} {c : ConnId} {loop : ServerLoop}

/-- A task of a connection on the loop of the connection. -/
theorem Placed.own (placed : s.Placed) (made : s.Made c) {task : LoopTask} {kind : LifeKind}
    (home : s.home task = some (s.conns c).loop) (own : task.kind = some (c, kind)) :
    s.Fits (s.conns c).loop task := by
  refine ⟨placed.homes c made, by rw [home]; rfl, ?_⟩
  intro d other found
  cases own.symm.trans found
  exact made

/-- A task that keeps a connection busy runs on the loop of the connection. -/
theorem Fits.loop_of_busy {task : LoopTask} (fits : s.Fits loop task)
    (busy : task.kind = some (c, .busy)) : (s.conns c).loop = loop := by
  have home := fits.home
  cases task with
  | handleEvent | handleClose | sendInLoop | shutdownInLoop | writeComplete | handler =>
      cases busy
      exact home
  | _ => cases busy

theorem fits_running (member : loop ∈ s.loops) : s.Fits loop .running :=
  ⟨member, rfl, fun _ _ impossible => by cases impossible⟩

theorem fits_idle {task : LoopTask} (base : s.home task = some .base) (free : task.kind = none) :
    s.Fits .base task := by
  refine ⟨s.base_mem_loops, by rw [base]; rfl, ?_⟩
  intro c kind found
  rw [free] at found
  cases found

theorem SameFrame.made (same : SameFrame t s) : t.Made c ↔ s.Made c := by
  rw [Made, Made, same.nextConnId]

theorem SameFrame.fits (same : SameFrame t s) {task : LoopTask} (fits : s.Fits loop task) :
    t.Fits loop task := by
  have homes : t.home task = s.home task := by
    cases task <;> simp only [home, same.homes]
  refine ⟨?_, ?_, fun c kind found => same.made.mpr (fits.owner c kind found)⟩
  · rw [loops, same.threadPool]
    exact fits.member
  · rw [homes]
    exact fits.home

theorem Placed.of_same (placed : s.Placed) (same : SameFrame t s)
    (fits : ∀ loop, ∀ task ∈ (t.work loop).tasks, s.Fits loop task)
    (waits : ∀ loop, ∀ task ∈ (t.work loop).stack.tail, task.Waits)
    (late : ∀ c ∈ t.shutdowns, s.Made c)
    (table : ∀ entry ∈ t.connections.entries,
      s.Made entry.2 ∧ entry.1 = connName s.name entry.2) : t.Placed where
  short := same.name ▸ placed.short
  first := same.nextConnId ▸ placed.first
  few := same.nextConnId ▸ placed.few
  next := same.threadPool ▸ placed.next
  homes c made := by
    rw [loops, same.threadPool, same.homes]
    exact placed.homes c (same.made.mp made)
  fits loop task member := same.fits (fits loop task member)
  waits := waits
  late c member := same.made.mpr (late c member)
  table entry member := by
    rw [same.made, same.name]
    exact table entry member

/-- A loop goes on with what it has: tasks leave its stack or its queue. -/
theorem Placed.working (placed : s.Placed) {work : Workers ServerLoop LoopTask}
    (fewer : ∀ loop, ∀ task ∈ (work loop).tasks, task ∈ (s.work loop).tasks)
    (waits : ∀ loop, ∀ task ∈ (work loop).stack.tail, task.Waits) : Placed { s with work := work } :=
  placed.of_same (SameFrame.refl.working work)
    (fun loop task member => placed.fits loop task (fewer loop task member)) waits placed.late
    placed.table

/-- The frames behind the top one. -/
theorem Placed.waits_of_pop (placed : s.Placed) {task : LoopTask}
    {work : Workers ServerLoop LoopTask} (popped : s.work.pop loop = some (task, work)) :
    (∀ frame ∈ (work loop).stack, frame.Waits) ∧
      ∀ other, ∀ frame ∈ (work other).stack.tail, frame.Waits := by
  obtain ⟨rest, stack, rfl⟩ := Workers.pop_eq_some popped
  have behind : ∀ frame ∈ rest, frame.Waits := by
    intro frame member
    refine placed.waits loop frame ?_
    rw [stack]
    exact member
  constructor
  · rw [Function.update_self]
    exact behind
  · intro other frame member
    by_cases same : other = loop
    · subst same
      rw [Function.update_self] at member
      exact behind frame (List.mem_of_mem_tail member)
    · rw [Function.update_of_ne same] at member
      exact placed.waits other frame member

theorem Placed.pop (placed : s.Placed) {task : LoopTask} {work : Workers ServerLoop LoopTask}
    (popped : s.work.pop loop = some (task, work)) : Placed { s with work := work } :=
  placed.working (Workers.mem_pop popped).2 (placed.waits_of_pop popped).2

theorem Placed.unwind (placed : s.Placed) (loop : ServerLoop) : (s.unwind loop).Placed := by
  refine placed.working (fun _ _ => Workers.mem_unwind) ?_
  intro other task member
  by_cases same : other = loop
  · subst same
    rw [Workers.unwind, Function.update_self] at member
    obtain ⟨dropped, whole⟩ :=
      List.dropWhile_suffix (l := (s.work other).stack) fun task => !LoopTask.catches task
    refine placed.waits other task ?_
    rw [← whole]
    cases dropped with
    | nil => exact member
    | cons _ _ => exact List.mem_append_right _ (List.mem_of_mem_tail member)
  · rw [Workers.unwind, Function.update_of_ne same] at member
    exact placed.waits other task member

theorem Placed.start (placed : s.Placed) {work : Workers ServerLoop LoopTask}
    (started : s.work.start loop = some work) : Placed { s with work := work } := by
  refine placed.working (fun _ _ => Workers.mem_start started) ?_
  obtain ⟨first, rest, _, _, rfl⟩ := Workers.start_eq_some started
  intro other task member
  by_cases same : other = loop
  · subst same
    rw [Function.update_self] at member
    cases member
  · rw [Function.update_of_ne same] at member
    exact placed.waits other task member

/-- All frames wait while a callback of the user runs, and between the functions of a loop. -/
theorem Placed.waits_of_callable (placed : s.Placed) (callable : s.callable (some loop) = true) :
    ∀ task ∈ (s.work loop).stack, task.Waits := by
  have behind := placed.waits loop
  unfold TcpServer.callable at callable
  dsimp only at callable
  split at callable
  · next empty =>
      rw [empty]
      exact List.forall_mem_nil _
  · next rest stack =>
      rw [stack] at behind ⊢
      exact List.forall_mem_cons.mpr ⟨trivial, behind⟩
  · cases callable

theorem Placed.waits_of_polls (placed : s.Placed) (polls : s.polls loop = true) :
    ∀ task ∈ (s.work loop).stack, task.Waits := by
  have behind := placed.waits loop
  unfold TcpServer.polls at polls
  split at polls
  · next empty =>
      rw [empty]
      exact List.forall_mem_nil _
  · next rest stack =>
      rw [stack] at behind ⊢
      exact List.forall_mem_cons.mpr ⟨trivial, behind⟩
  · cases polls

/-! ## New connections -/

/-- The next loop is a loop of the pool, and the pool goes on to another one. -/
theorem getNextLoop_spec {pool : EventLoopThreadPool}
    (next : pool.loops = 0 ∨ pool.next < pool.loops) :
    pool.getNextLoop.2.loops = pool.loops ∧
      (pool.getNextLoop.2.loops = 0 ∨ pool.getNextLoop.2.next < pool.getNextLoop.2.loops) ∧
      pool.getNextLoop.1 ∈ ServerLoop.base :: (List.range pool.loops).map .io := by
  unfold EventLoopThreadPool.getNextLoop
  split
  · next none => exact ⟨rfl, Or.inl none, List.mem_cons_self ..⟩
  · next some_loops =>
      have bound := next.resolve_left some_loops
      refine ⟨rfl, Or.inr ?_, List.mem_cons_of_mem _ ?_⟩
      · dsimp only
        split
        · exact Nat.pos_of_ne_zero some_loops
        · omega
      · exact List.mem_map.mpr ⟨_, List.mem_range.mpr bound, rfl⟩

theorem Placed.loops_addConnection (placed : s.Placed) (sockfd : Nat) (nowMs : Int) :
    (s.addConnection sockfd nowMs).loops = s.loops :=
  congrArg (fun loops => ServerLoop.base :: (List.range loops).map .io)
    (getNextLoop_spec placed.next).1

theorem Placed.getNextLoop_mem (placed : s.Placed) (sockfd : Nat) (nowMs : Int) :
    s.threadPool.getNextLoop.1 ∈ (s.addConnection sockfd nowMs).loops := by
  rw [placed.loops_addConnection]
  exact (getNextLoop_spec placed.next).2.2

/-- A new connection is made under the next number. -/
theorem Placed.addConnection (placed : s.Placed) (few : s.nextConnId < 2 ^ 31 - 1) (sockfd : Nat)
    (nowMs : Int) : (s.addConnection sockfd nowMs).Placed := by
  obtain ⟨_, next, member⟩ := getNextLoop_spec placed.next
  have loops := placed.loops_addConnection sockfd nowMs
  have kept : ∀ {c}, s.Made c → (s.addConnection sockfd nowMs).Made c := fun made =>
    ⟨made.1, Nat.lt_succ_of_lt made.2⟩
  have stays : ∀ {c}, s.Made c → (s.addConnection sockfd nowMs).conns c = s.conns c :=
    fun made => Function.update_of_ne (Nat.ne_of_lt made.2) _ _
  refine ⟨placed.short, Nat.le_succ_of_le placed.first, ?_, next, ?_, ?_, placed.waits,
    fun c late => kept (placed.late c late), ?_⟩
  · change s.nextConnId + 1 < 2 ^ 31
    omega
  · intro c made
    rw [loops]
    by_cases new : c = s.nextConnId
    · subst new
      change (Function.update s.conns s.nextConnId _ s.nextConnId).loop ∈ s.loops
      rw [Function.update_self]
      exact member
    · have before : s.Made c := ⟨made.1, Nat.lt_of_le_of_ne (Nat.le_of_lt_succ made.2) new⟩
      rw [stays before]
      exact placed.homes c before
  · intro loop task pending
    have before := placed.fits loop task pending
    have home : (s.addConnection sockfd nowMs).home task = s.home task := by
      cases task <;> simp only [TcpServer.home]
      all_goals rw [stays (before.owner _ _ rfl)]
    exact ⟨loops ▸ before.member, home ▸ before.home, fun c kind own =>
      kept (before.owner c kind own)⟩
  · intro entry listed
    rcases (SortedMap.mem_insert).mp listed with rfl | ⟨old, _⟩
    · exact ⟨⟨placed.first, Nat.lt_succ_self _⟩, rfl⟩
    · obtain ⟨made, name⟩ := placed.table entry old
      exact ⟨kept made, name⟩

theorem placed_started {name : List Char} (short : name.length ≤ 15) (numThreads : Int)
    (connectionCallback : Bool) (idleTimeoutSeconds : Int) :
    (started name numThreads connectionCallback idleTimeoutSeconds).Placed where
  short := short
  first := Nat.le_refl 1
  few := (by decide : 1 < 2 ^ 31)
  next := by
    change numThreads.toNat = 0 ∨ 0 < numThreads.toNat
    omega
  homes c made := absurd made.1 (Nat.not_le_of_lt made.2)
  fits _ _ impossible := by cases impossible
  waits _ _ impossible := by cases impossible
  late _ impossible := by cases impossible
  table _ impossible := by cases impossible

end Places

end TcpServer

end RpcFramework
