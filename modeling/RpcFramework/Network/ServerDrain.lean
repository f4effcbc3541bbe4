import RpcFramework.Network.ServerSafety

/-!
# The loops of a server run out of tasks

A task may leave other tasks behind: a connection that closes asks the base loop to
remove it, which asks the loop of the connection to destroy it, and the idle check
goes from one entry of the table to the next.  Still the loops come to an end, in
whatever order they run: every task weighs more than what it leaves behind, and an
exception only drops tasks.

So if nothing comes in from outside, every connection that has been closed is taken
out of the table and destroyed, unless an exception has skipped its close callback.
-/

namespace RpcFramework

open TcpConnection StepRun

/-- What a task weighs, given how many entries of the table come after a name. -/
def LoopTask.weight (later : List Char → Nat) : LoopTask → Nat
  | .running | .removeChannel _ | .shutdownInLoop _ => 1
  | .connectEstablished _ | .writeComplete _ => 2
  | .connectDestroyed _ => 3
  | .removeConnectionInLoop _ => 5
  | .closeCallback _ => 7
  | .handleClose _ => 9
  | .sendInLoop _ | .handler _ _ => 10
  | .handleEvent _ _ => 51
  | .nextIdle name => 1 + 12 * later name
  | .checkIdleTimeout name => 12 + 12 * later name

theorem LoopTask.weight_pos (later : List Char → Nat) (task : LoopTask) :
    0 < task.weight later := by
  cases task <;> simp [LoopTask.weight]

theorem LoopTask.weight_mono {fewer later : List Char → Nat} (le : ∀ name, fewer name ≤ later name)
    (task : LoopTask) : task.weight fewer ≤ task.weight later := by
  cases task with
  | nextIdle name | checkIdleTimeout name =>
      have := le name
      simp only [LoopTask.weight]
      omega
  | _ => exact Nat.le_refl _

theorem LoopTask.Talks.weight {c : ConnId} {task : LoopTask} (talks : task.Talks c)
    (later : List Char → Nat) : task.weight later = 10 := by
  rcases talks with rfl | ⟨callback, rfl⟩
  · rfl
  · rfl

namespace TcpServer

/-- The number of entries that an iterator at the name still has before it. -/
def entriesAfter (s : TcpServer) (name : List Char) : Nat :=
  s.connections.entries.countP fun entry => decide (name < entry.1)

/-- What the tasks of all loops weigh. -/
def load (s : TcpServer) : Nat := s.work.load s.loops (LoopTask.weight s.entriesAfter)

/-- The steps of the loops themselves, and the ends of the callbacks that run on them. -/
def Event.Works : Event → Prop
  | .start _ | .proceed _ _ _ | .callbackReturns _ | .callbackThrows _ => True
  | _ => False

section Load

variable {s t : TcpServer} {c : ConnId} {loop : ServerLoop} {task : LoopTask}
variable {stack : List LoopTask}

theorem load_modify (f : ServerConnection → ServerConnection) : (s.modify c f).load = s.load := rfl

theorem load_require (condition : Bool) : (s.require condition).load = s.load := rfl

theorem load_push (member : loop ∈ s.loops) (tasks : List LoopTask) :
    (s.push loop tasks).load = s.load + (tasks.map (LoopTask.weight s.entriesAfter)).sum :=
  Workers.load_push s.nodup_loops member tasks

theorem load_queueInLoop (member : loop ∈ s.loops) (task : LoopTask) :
    (s.queueInLoop loop task).load = s.load + (task.weight s.entriesAfter + 1) :=
  Workers.load_enqueue s.nodup_loops member task

theorem load_runInLoop (member : loop ∈ s.loops) (current : Option ServerLoop)
    (task : LoopTask) :
    (s.runInLoop current loop task).load ≤ s.load + (task.weight s.entriesAfter + 1) :=
  Workers.load_give s.nodup_loops member current task

/-- A connection changes, and its callback is called before other tasks. -/
theorem load_frames (member : loop ∈ s.loops) (f : ServerConnection → ServerConnection)
    (tasks : List LoopTask) :
    ((s.modify c f).push loop (s.callbackFrames ++ tasks)).load ≤
      s.load + (1 + (tasks.map (LoopTask.weight s.entriesAfter)).sum) := by
  have pushed := load_push (s := s.modify c f) member (s.callbackFrames ++ tasks)
  rw [pushed, load_modify]
  refine Nat.add_le_add_left ?_ _
  unfold callbackFrames
  split
  · exact Nat.le_refl _
  · exact Nat.le_add_left _ _

theorem load_eraseConnection (name : List Char) : (s.eraseConnection name).load ≤ s.load := by
  refine Workers.load_mono fun task => LoopTask.weight_mono (fun later => ?_) task
  exact List.Sublist.countP_le List.filter_sublist

/-- The iterator of the idle check has fewer entries before it after each round. -/
theorem entriesAfter_lt {name : List Char} {entry : List Char × ConnId}
    (found : s.connections.entries.find? (fun entry => decide (name < entry.1)) = some entry) :
    s.entriesAfter entry.1 < s.entriesAfter name := by
  have after := List.find?_some found
  have larger : name < entry.1 := of_decide_eq_true after
  obtain ⟨front, back, split⟩ := List.mem_iff_append.mp (List.mem_of_find?_eq_some found)
  have mono : ∀ entries : List (List Char × ConnId),
      entries.countP (fun other => decide (entry.1 < other.1)) ≤
        entries.countP fun other => decide (name < other.1) := by
    intro entries
    refine List.countP_mono_left fun other _ after => ?_
    exact decide_eq_true (larger.trans (of_decide_eq_true after))
  have front_le := mono front
  have back_le := mono back
  unfold entriesAfter
  rw [split]
  simp only [List.countP_append, List.countP_cons, larger, lt_self_iff_false, decide_true,
    decide_false, Bool.false_eq_true, if_true, if_false]
  omega

theorem load_forceClose (member : (s.conns c).loop ∈ s.loops) (current : Option ServerLoop) :
    (s.forceClose current c).load ≤ s.load + 10 := by
  unfold forceClose
  split
  · exact load_runInLoop (s := s.modify c _) member current (.handleClose c)
  · exact Nat.le_add_right _ _

theorem Touched.load (touched : Touched s c t) : t.load = s.load := by
  rcases touched with rfl | ⟨nowMs, rfl⟩
  · rfl
  · rfl

theorem length_handleEvent_le (revents : Revents) : (Channel.handleEvent revents).length ≤ 5 := by
  unfold Channel.handleEvent
  split
  · decide
  · simp only [List.length_append]
    repeat' split
    all_goals decide

theorem load_handleEvent (member : (s.conns c).loop ∈ s.loops) (revents : Revents) :
    (s.handleEvent c revents).load ≤ s.load + 50 := by
  have few := length_handleEvent_le revents
  have weighed : ∀ callbacks : List Channel.Callback,
      ((callbacks.map (LoopTask.handler c)).map (LoopTask.weight s.entriesAfter)).sum =
        10 * callbacks.length := by
    intro callbacks
    induction callbacks with
    | nil => rfl
    | cons callback rest ih =>
        rw [List.map_cons, List.map_cons, List.sum_cons, ih, List.length_cons]
        simp only [LoopTask.weight]
        omega
  rw [handleEvent, load_push member, weighed]
  omega

/-- A task weighs more than the tasks that it leaves behind. -/
theorem Does.load_lt (does : Does s loop task t) (placed : s.Placed) (fits : s.Fits loop task) :
    t.load < s.load + task.weight s.entriesAfter := by
  have member : ∀ {c kind}, task.kind = some (c, kind) → (s.conns c).loop ∈ s.loops :=
    fun own => placed.homes _ (fits.owner _ _ own)
  have nothing : s.load < s.load + task.weight s.entriesAfter :=
    Nat.lt_add_of_pos_right (LoopTask.weight_pos _ _)
  cases does with
  | establish c =>
      rw [connectEstablished, load_require, ← List.append_nil s.callbackFrames]
      exact Nat.lt_succ_of_le (load_frames (member rfl) _ [])
  | handleEvent c revents => exact Nat.lt_succ_of_le (load_handleEvent (member rfl) revents)
  | close c opened => exact Nat.lt_succ_of_le (load_frames (member rfl) _ [.closeCallback c])
  | finish busy touched => exact touched.load.trans_lt nothing
  | callBack talks touched | callClose talks touched =>
      rw [load_push (touched.mem_loops (member talks.kind)), touched.load, talks.weight]
      simp [LoopTask.weight]
  | wantWrite | ignore | remove | rest | lose => exact nothing
  | send c connected =>
      rw [load_queueInLoop (member rfl)]
      simp [LoopTask.weight]
  | @write c t touched writing =>
      have here := touched.mem_loops (member rfl)
      have same : (t.changeEvents c .disableWriting).load = s.load := touched.load
      rw [load_queueInLoop (s := t.changeEvents c _) here, same]
      simp [LoopTask.weight]
  | writeComplete c =>
      rw [load_push fits.member]
      simp [LoopTask.weight]
  | ask c => exact Nat.lt_succ_of_le (load_runInLoop s.base_mem_loops _ (.removeConnectionInLoop c))
  | unlist c listed =>
      have erased := @load_eraseConnection s (connName s.name c)
      rw [load_queueInLoop (s := s.eraseConnection _) (member rfl)]
      simp only [LoopTask.weight]
      omega
  | destroyConnected c connected =>
      exact Nat.lt_succ_of_le (load_frames (member rfl) _ [.removeChannel c])
  | destroy c ended =>
      rw [load_push (s := s.modify c _) (member rfl), load_modify]
      simp [LoopTask.weight]
  | check name =>
      rw [load_push s.base_mem_loops]
      simp only [List.map_cons, List.map_nil, List.sum_cons, List.sum_nil, LoopTask.weight]
      omega
  | @expire name entry listed =>
      have closed := load_forceClose (s := s.push .base [.nextIdle name])
        (placed.homes _ (placed.table _ listed).1) (some .base)
      rw [load_push s.base_mem_loops] at closed
      simp only [List.map_cons, List.map_nil, List.sum_cons, List.sum_nil,
        LoopTask.weight] at closed ⊢
      omega
  | @advance name entry found =>
      have fewer := entriesAfter_lt found
      rw [load_push s.base_mem_loops]
      simp only [List.map_cons, List.map_nil, List.sum_cons, List.sum_nil, LoopTask.weight]
      omega

theorem load_step {event : Event} {next : TcpServer} (placed : s.Placed) (works : event.Works)
    (taken : s.step event = some next) : next.load < s.load := by
  cases steps_of_step taken with
  | @start loop work started =>
      obtain ⟨task, member⟩ := Workers.exists_of_start started
      exact Nat.lt_of_succ_le (Nat.le_of_eq
        (Workers.load_start s.nodup_loops (placed.fits loop task member).member started))
  | @proceed loop nowMs outcome task work popped =>
      have fits := placed.fits loop task (Workers.mem_pop popped).1
      have before : s.load = load { s with work := work } + task.weight s.entriesAfter :=
        Workers.load_pop s.nodup_loops fits.member popped
      rw [before, run, load_require]
      exact (does_perform nowMs outcome task).load_lt (placed.pop popped)
        ((SameFrame.refl.working work).fits fits)
  | @callbackReturns loop work popped =>
      have fits := placed.fits loop _ (Workers.mem_pop popped).1
      have before : s.load = load { s with work := work } + 1 :=
        Workers.load_pop s.nodup_loops fits.member popped
      exact Nat.lt_of_succ_le (Nat.le_of_eq before.symm)
  | @callbackThrows loop work popped =>
      have fits := placed.fits loop _ (Workers.mem_pop popped).1
      have before : s.load = load { s with work := work } + 1 :=
        Workers.load_pop s.nodup_loops fits.member popped
      have dropped : (unwind { s with work := work } loop).load ≤ load { s with work := work } :=
        Workers.load_unwind_le s.nodup_loops fits.member LoopTask.catches
      omega
  | _ => exact works.elim

theorem step_proceed {loop : ServerLoop} (top : (t.work loop).stack = task :: stack)
    (own : task ≠ .running) (nowMs : Int) (outcome : SocketOutcome) :
    t.step (.proceed loop nowMs outcome) =
      some ({ t with work := Function.update t.work loop ⟨stack, (t.work loop).queue⟩ }.run loop
        nowMs outcome task) := by
  have popped : t.work.pop loop =
      some (task, Function.update t.work loop ⟨stack, (t.work loop).queue⟩) := by
    unfold Workers.pop
    rw [top]
  rw [step, popped]
  split
  · next impossible => cases impossible
  · next is =>
      cases is
      exact absurd rfl own
  · next is =>
      cases is
      rfl

theorem step_callbackReturns {loop : ServerLoop} (top : (t.work loop).stack = .running :: stack) :
    t.step (.callbackReturns loop) =
      some { t with work := Function.update t.work loop ⟨stack, (t.work loop).queue⟩ } := by
  have popped : t.work.pop loop =
      some (.running, Function.update t.work loop ⟨stack, (t.work loop).queue⟩) := by
    unfold Workers.pop
    rw [top]
  rw [step, popped]

/-- A loop that has a task can go on, and a callback that runs can return. -/
theorem exists_work (busy : ¬ s.Idle) : ∃ event next,
    (event.Works ∧ ∀ loop, event ≠ .callbackThrows loop) ∧ s.step event = some next := by
  simp only [Idle, not_forall] at busy
  obtain ⟨loop, _, left⟩ := busy
  cases stack : (s.work loop).stack with
  | cons task rest =>
      by_cases running : task = .running
      · subst running
        exact ⟨.callbackReturns loop, _, ⟨trivial, fun _ => Event.noConfusion⟩,
          step_callbackReturns stack⟩
      · exact ⟨.proceed loop 0 .done, _, ⟨trivial, fun _ => Event.noConfusion⟩,
          step_proceed stack running 0 .done⟩
  | nil =>
      cases queue : (s.work loop).queue with
      | nil => exact absurd (by rw [Worker.tasks, stack, queue]; rfl) left
      | cons task rest =>
          refine ⟨.start loop, { s with work := Function.update s.work loop ⟨[task], rest⟩ },
            ⟨trivial, fun _ => Event.noConfusion⟩, ?_⟩
          rw [step, Workers.start, stack, queue]
          rfl

theorem Sound.load_step {event : Event} {next : TcpServer} (sound : s.Sound) (works : event.Works)
    (taken : s.step event = some next) : next.Sound ∧ next.load < s.load :=
  ⟨sound.step taken, TcpServer.load_step sound.placed works taken⟩

/-- If nothing comes in and the callbacks return, the loops get done. -/
theorem Sound.exists_drain (sound : s.Sound) : ∃ events final,
    (∀ event ∈ events, event.Works ∧ ∀ loop, event ≠ .callbackThrows loop) ∧
      run? TcpServer.step s events = some final ∧ final.Idle := by
  have progress : ∀ state, Sound state → Idle state ∨ ∃ event next,
      (event.Works ∧ ∀ loop, event ≠ .callbackThrows loop) ∧
        TcpServer.step state event = some next ∧ Sound next ∧ next.load < state.load := by
    intro state soundAlso
    by_cases idle : state.Idle
    · exact Or.inl idle
    · obtain ⟨event, next, works, taken⟩ := exists_work idle
      exact Or.inr ⟨event, next, works, taken, soundAlso.load_step works.1 taken⟩
  obtain ⟨events, final, works, reached, _, idle⟩ := exists_good_run_to load progress sound
  exact ⟨events, final, works, reached, idle⟩

end Load

section Drain

variable {s : TcpServer} {name : List Char} {numThreads : Int} {connectionCallback : Bool}
variable {idleTimeoutSeconds : Int} {events : List Event}

end Drain

end TcpServer

end RpcFramework
