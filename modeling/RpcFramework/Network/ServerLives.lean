import Mathlib.Logic.Relation
import RpcFramework.Lib.Simulation
import RpcFramework.Network.ServerPlaces

/-!
# The lives of the connections of a server

However the loops of a server interleave, each of its connections goes through one
life: it is established once, closed, taken out of the table and destroyed.  The
life of a connection is what the state of the server says about it: its own state,
whether the table has it, and how many tasks of each kind are pending for it on
all the loops.  Every step of the server is, for each connection, a sequence of moves
of its life.
-/

namespace RpcFramework

open TcpConnection StepRun Relation

/-- A connection as its server sees it. -/
structure ConnectionLife where
  state : StateE
  channel : PolledChannel
  calls : List LifeCall
  listed : Bool
  late : Nat
  pending : LifeKind → Nat

namespace ConnectionLife

/-- One more pending task of a kind. -/
def gain (life : ConnectionLife) (kind : LifeKind) : ConnectionLife :=
  { life with pending := fun other => life.pending other + if kind = other then 1 else 0 }

/-- One more pending task, which may be a task of another connection. -/
def task (c : ConnId) (life : ConnectionLife) (task : LoopTask) : ConnectionLife :=
  match task.kind with
  | none => life
  | some (d, kind) => if d = c then life.gain kind else life

/-- The moves of a life.  A life that a task is popped from is `life.gain kind`.
`Allowed` restricts the states in which a late call of `shutdown` is completed, and `Skips`
says whether an exception may skip the close callback. -/
inductive Move (Allowed : StateE → Prop) (Skips : Prop) : ConnectionLife → ConnectionLife → Prop
  | begin (life : ConnectionLife) (established : life.state ≠ .connecting) :
      Move Allowed Skips life (life.gain .busy)
  | finish (life : ConnectionLife) : Move Allowed Skips (life.gain .busy) life
  | enableWriting (life : ConnectionLife) (connected : life.state = .connected) :
      Move Allowed Skips life { life with channel := life.channel.update .enableWriting }
  | disableWriting (life : ConnectionLife) (writing : life.channel.events.isWriting = true) :
      Move Allowed Skips life { life with channel := life.channel.update .disableWriting }
  | establish (life : ConnectionLife) :
      Move Allowed Skips (life.gain .establish) { life with
        state := .connected
        channel := life.channel.update .enableReading
        calls := life.calls ++ [.established] }
  | disconnect (life : ConnectionLife) (connected : life.state = .connected) :
      Move Allowed Skips life { life with state := .disconnecting }
  | reads (life : ConnectionLife) (connected : life.state = .connected) :
      Move Allowed Skips life { life with late := life.late + 1 }
  | stores (life : ConnectionLife) (allowed : Allowed life.state) :
      Move Allowed Skips { life with late := life.late + 1 } { life with state := .disconnecting }
  | close (life : ConnectionLife) (opened : life.state ≠ .disconnected) :
      Move Allowed Skips (life.gain .busy) (gain { life with
        state := .disconnected
        channel := life.channel.update .disableAll
        calls := life.calls ++ [.closed] } .close)
  | unlist (life : ConnectionLife) (listed : life.listed = true) :
      Move Allowed Skips (life.gain .close) (gain { life with listed := false } .destroy)
  | ignore (life : ConnectionLife) (unlisted : life.listed = false) :
      Move Allowed Skips (life.gain .close) life
  | skip (life : ConnectionLife) (skips : Skips) : Move Allowed Skips (life.gain .close) life
  | destroy (life : ConnectionLife) (closed : life.state ≠ .connected) :
      Move Allowed Skips (life.gain .destroy)
        (gain { life with calls := life.calls ++ [.destroyed] } .remove)
  | destroyConnected (life : ConnectionLife) (connected : life.state = .connected) :
      Move Allowed Skips (life.gain .destroy) (gain { life with
        state := .disconnected
        channel := life.channel.update .disableAll
        calls := life.calls ++ [.destroyed] } .remove)
  | remove (life : ConnectionLife) :
      Move Allowed Skips (life.gain .remove) { life with channel := life.channel.remove }

end ConnectionLife

namespace TcpServer

def pendingOf (s : TcpServer) (c : ConnId) (kind : LifeKind) : Nat :=
  s.work.pending s.loops fun task => decide (task.kind = some (c, kind))

def life (s : TcpServer) (c : ConnId) : ConnectionLife where
  state := (s.conns c).state
  channel := (s.conns c).channel
  calls := (s.conns c).calls
  listed := decide ((connName s.name c, c) ∈ s.connections.entries)
  late := s.shutdowns.count c
  pending := s.pendingOf c

/-! ## How the parts of a step change a life -/

section Parts

variable {s : TcpServer} {c d : ConnId} {loop : ServerLoop}

/-- The tasks of a connection are counted by their kinds. -/
theorem foldl_task (life : ConnectionLife) (tasks : List LoopTask) :
    tasks.foldl (ConnectionLife.task c) life = { life with
      pending := fun kind => life.pending kind +
        tasks.countP fun task => decide (task.kind = some (c, kind)) } := by
  induction tasks generalizing life with
  | nil => rfl
  | cons task tasks ih =>
      rw [List.foldl_cons, ih]
      unfold ConnectionLife.task
      cases found : task.kind with
      | none => simp [found]
      | some key =>
          obtain ⟨d, kind⟩ := key
          by_cases same : d = c
          · subst same
            simp only [if_true, ConnectionLife.gain, List.countP_cons, found, Option.some.injEq,
              Prod.mk.injEq, true_and, decide_eq_true_eq, ConnectionLife.mk.injEq]
            funext other
            rw [Nat.add_right_comm, Nat.add_assoc]
          · simp [found, same]

theorem life_work {work : Workers ServerLoop LoopTask} {tasks : List LoopTask}
    (counted : ∀ p, work.pending s.loops p = s.work.pending s.loops p + tasks.countP p) :
    life { s with work := work } c = tasks.foldl (ConnectionLife.task c) (s.life c) := by
  rw [foldl_task]
  unfold life pendingOf
  simp only [ConnectionLife.mk.injEq, true_and]
  funext kind
  exact counted _

theorem life_push (member : loop ∈ s.loops) (tasks : List LoopTask) :
    (s.push loop tasks).life c = tasks.foldl (ConnectionLife.task c) (s.life c) :=
  life_work fun _ => Workers.pending_push s.nodup_loops member tasks

theorem life_queueInLoop (member : loop ∈ s.loops) (task : LoopTask) :
    (s.queueInLoop loop task).life c = (s.life c).task c task :=
  @life_work s c _ [task] fun _ => Workers.pending_enqueue s.nodup_loops member task

theorem life_runInLoop (member : loop ∈ s.loops) (current : Option ServerLoop)
    (task : LoopTask) : (s.runInLoop current loop task).life c = (s.life c).task c task :=
  @life_work s c _ [task] fun _ => Workers.pending_give s.nodup_loops member current task

theorem life_start (member : loop ∈ s.loops) {work : Workers ServerLoop LoopTask}
    (started : s.work.start loop = some work) : life { s with work := work } c = s.life c :=
  @life_work s c _ [] fun _ => Workers.pending_start s.nodup_loops member started

theorem life_pop (member : loop ∈ s.loops) {task : LoopTask}
    {work : Workers ServerLoop LoopTask} (popped : s.work.pop loop = some (task, work)) :
    s.life c = (life { s with work := work } c).task c task :=
  @life_work { s with work := work } c s.work [task]
    fun _ => Workers.pending_pop s.nodup_loops member popped

/-- What an exception skips is not pending any more. -/
theorem life_unwind (member : loop ∈ s.loops) :
    s.life c = ((s.work loop).stack.takeWhile fun task => !task.catches).foldl
      (ConnectionLife.task c) ((s.unwind loop).life c) :=
  @life_work (s.unwind loop) c s.work _
    fun _ => Workers.pending_unwind s.nodup_loops member LoopTask.catches

theorem life_modify_ne (f : ServerConnection → ServerConnection) (differs : d ≠ c) :
    (s.modify c f).life d = s.life d := by
  unfold life pendingOf modify
  simp only [Function.update_of_ne differs]
  rfl

theorem life_modify_self (f : ServerConnection → ServerConnection) :
    (s.modify c f).life c = { s.life c with
      state := (f (s.conns c)).state
      channel := (f (s.conns c)).channel
      calls := (f (s.conns c)).calls } := by
  unfold life pendingOf modify
  simp only [Function.update_self]
  rfl

theorem life_setShutdowns (late : List ConnId) :
    (s.setShutdowns late).life c = { s.life c with late := late.count c } := rfl

theorem life_require (condition : Bool) : (s.require condition).life c = s.life c := rfl

theorem foldl_callbackFrames (life : ConnectionLife) :
    s.callbackFrames.foldl (ConnectionLife.task c) life = life := by
  unfold callbackFrames
  split
  · rfl
  · rfl

/-- The tasks are counted by their kinds. -/
theorem task_congr {first second : LoopTask} (same : first.kind = second.kind)
    (life : ConnectionLife) : life.task c first = life.task c second := by
  unfold ConnectionLife.task
  rw [same]

theorem task_free {task : LoopTask} (free : task.kind = none) (life : ConnectionLife) :
    life.task c task = life := by
  unfold ConnectionLife.task
  rw [free]

theorem task_self {task : LoopTask} {kind : LifeKind} (own : task.kind = some (c, kind))
    (life : ConnectionLife) : life.task c task = life.gain kind := by
  unfold ConnectionLife.task
  rw [own]
  exact if_pos rfl

theorem task_ne {task : LoopTask} {kind : LifeKind} (own : task.kind = some (c, kind))
    (differs : d ≠ c) (life : ConnectionLife) : life.task d task = life := by
  unfold ConnectionLife.task
  rw [own]
  exact if_neg differs.symm

/-- A task on a loop is counted in the life of its connection. -/
theorem pending_of_mem (member : loop ∈ s.loops) {task : LoopTask}
    (found : task ∈ (s.work loop).tasks) {kind : LifeKind} (own : task.kind = some (c, kind)) :
    0 < (s.life c).pending kind :=
  Workers.pending_pos member found (decide_eq_true own)

end Parts

/-! ## The functions of a connection -/

section Functions

variable {s t : TcpServer} {c d : ConnId} {loop : ServerLoop} {task second : LoopTask}
variable {kind left : LifeKind} {Allowed : StateE → Prop} {Skips : Prop}

open ConnectionLife

/-- A task changes its connection. -/
theorem moves_modify (own : task.kind = some (c, kind)) {f : ServerConnection → ServerConnection}
    (move : Move Allowed Skips ((s.life c).gain kind) { s.life c with
      state := (f (s.conns c)).state
      channel := (f (s.conns c)).channel
      calls := (f (s.conns c)).calls }) :
    ReflTransGen (Move Allowed Skips) ((s.life d).task d task) ((s.modify c f).life d) := by
  by_cases same : d = c
  · subst same
    rw [life_modify_self, task_self own]
    exact .single move
  · rw [life_modify_ne _ same, task_ne own same]

/-- A task changes its connection and leaves another task behind. -/
theorem moves_modify_task (own : task.kind = some (c, kind)) (next : second.kind = some (c, left))
    {f : ServerConnection → ServerConnection}
    (move : Move Allowed Skips ((s.life c).gain kind) (gain { s.life c with
      state := (f (s.conns c)).state
      channel := (f (s.conns c)).channel
      calls := (f (s.conns c)).calls } left)) :
    ReflTransGen (Move Allowed Skips) ((s.life d).task d task)
      (((s.modify c f).life d).task d second) := by
  by_cases same : d = c
  · subst same
    rw [life_modify_self, task_self own, task_self next]
    exact .single move
  · rw [life_modify_ne _ same, task_ne own same, task_ne next same]

/-- The entry under the name of a connection is its own. -/
theorem Placed.name_injective (placed : s.Placed) (made : s.Made c) (madeAlso : s.Made d)
    (same : connName s.name c = connName s.name d) : c = d :=
  connName_injective placed.short (Nat.lt_trans made.2 placed.few)
    (Nat.lt_trans madeAlso.2 placed.few) same

theorem Placed.listed_iff (placed : s.Placed) (made : s.Made c) :
    s.Listed (connName s.name c) ↔ (connName s.name c, c) ∈ s.connections.entries := by
  constructor
  · rintro ⟨entry, found, name⟩
    obtain ⟨entryMade, entryName⟩ := placed.table entry found
    have whole : entry = (connName s.name c, c) :=
      Prod.ext name (placed.name_injective entryMade made (entryName.symm.trans name))
    exact whole ▸ found
  · exact fun found => ⟨_, found, rfl⟩

theorem life_eraseConnection_self :
    (s.eraseConnection (connName s.name c)).life c = { s.life c with listed := false } := by
  unfold life eraseConnection
  simp only [ConnectionLife.mk.injEq, true_and, decide_eq_false_iff_not]
  refine ⟨?_, rfl⟩
  exact fun still => (SortedMap.mem_erase.mp still).2 rfl

theorem Placed.life_eraseConnection (placed : s.Placed) (made : s.Made d) (madeAlso : s.Made c)
    (differs : d ≠ c) : (s.eraseConnection (connName s.name c)).life d = s.life d := by
  have apart : connName s.name d ≠ connName s.name c := fun same =>
    differs (placed.name_injective made madeAlso same)
  unfold life eraseConnection
  simp only [ConnectionLife.mk.injEq, true_and, decide_eq_decide]
  refine ⟨?_, rfl⟩
  exact SortedMap.mem_erase.trans (and_iff_left apart)

theorem moves_changeEvents {change : Channel.Change}
    (move : Move Allowed Skips (s.life c)
      { s.life c with channel := (s.life c).channel.update change }) :
    ReflTransGen (Move Allowed Skips) (s.life d) ((s.changeEvents c change).life d) := by
  unfold changeEvents
  by_cases same : d = c
  · subst same
    rw [life_modify_self]
    exact .single move
  · rw [life_modify_ne _ same]

/-- A task that keeps the connection busy is queued or pushed. -/
theorem moves_begin {task : LoopTask} (busy : task.kind = some (c, .busy))
    (established : (s.conns c).state ≠ .connecting) :
    ReflTransGen (Move Allowed Skips) (s.life d) ((s.life d).task d task) := by
  by_cases same : d = c
  · subst same
    rw [task_self busy]
    exact .single (.begin _ established)
  · rw [task_ne busy same]

theorem moves_finish {task : LoopTask} (busy : task.kind = some (c, .busy)) :
    ReflTransGen (Move Allowed Skips) ((s.life d).task d task) (s.life d) := by
  by_cases same : d = c
  · subst same
    rw [task_self busy]
    exact .single (.finish _)
  · rw [task_ne busy same]

/-- A connection that is to be closed or shut down. -/
theorem moves_disconnect (connected : (s.conns c).state = .connected)
    (busy : task.kind = some (c, .busy)) :
    ReflTransGen (Move Allowed Skips) (s.life d)
      (((s.modify c fun conn => { conn with state := .disconnecting }).life d).task d task) := by
  by_cases same : d = c
  · subst same
    rw [life_modify_self, task_self busy]
    exact .tail (.single (.disconnect _ connected)) (.begin _ StateE.noConfusion)
  · rw [life_modify_ne _ same, task_ne busy same]

theorem moves_forceClose (member : (s.conns c).loop ∈ s.loops) (current : Option ServerLoop) :
    ReflTransGen (Move Allowed Skips) (s.life d) ((s.forceClose current c).life d) := by
  unfold forceClose
  split
  · next connected =>
      rw [life_runInLoop (s := s.modify c _) member]
      exact moves_disconnect connected rfl
  · exact .refl

theorem moves_shutdownReads (connected : (s.conns c).state = .connected) :
    ReflTransGen (Move Allowed Skips) (s.life d) ((s.setShutdowns (c :: s.shutdowns)).life d) := by
  rw [life_setShutdowns]
  by_cases same : d = c
  · subst same
    rw [List.count_cons_self]
    exact .single (.reads _ connected)
  · rw [List.count_cons_of_ne (Ne.symm same)]
    exact .refl

theorem moves_storeDisconnecting (member : (s.conns c).loop ∈ s.loops) (late : c ∈ s.shutdowns)
    (allowed : Allowed (s.conns c).state) :
    ReflTransGen (Move Allowed Skips) (s.life d) ((s.storeDisconnecting c).life d) := by
  rw [storeDisconnecting,
    life_queueInLoop (s := (s.setShutdowns (s.shutdowns.erase c)).modify c _) member]
  by_cases same : d = c
  · subst same
    let fewer : ConnectionLife := { s.life d with late := (s.shutdowns.erase d).count d }
    have before : s.life d = { fewer with late := fewer.late + 1 } := by
      have erased := List.count_erase_self (a := d) (l := s.shutdowns)
      have some_late := List.count_pos_iff.mpr late
      simp only [fewer, life, ConnectionLife.mk.injEq, true_and, and_true]
      omega
    have after : ((s.setShutdowns (s.shutdowns.erase d)).modify d fun conn =>
        { conn with state := .disconnecting }).life d = { fewer with state := .disconnecting } :=
      life_modify_self _
    rw [before, after, task_self rfl]
    exact .tail (.single (.stores fewer allowed)) (.begin _ StateE.noConfusion)
  · rw [life_modify_ne _ same, task_ne rfl same, life_setShutdowns, List.count_erase_of_ne same]
    exact .refl

/-- Several tasks that keep their connections busy are begun. -/
theorem moves_beginAll {tasks : List LoopTask} {life : ConnectionLife}
    (busy : ∀ task ∈ tasks, ∃ c, task.kind = some (c, .busy) ∧ (d = c → life.state ≠ .connecting)) :
    ReflTransGen (Move Allowed Skips) life (tasks.foldl (ConnectionLife.task d) life) := by
  induction tasks generalizing life with
  | nil => exact .refl
  | cons task tasks ih =>
      obtain ⟨⟨c, here, established⟩, later⟩ := List.forall_mem_cons.mp busy
      by_cases same : d = c
      · subst same
        rw [List.foldl_cons, task_self here]
        exact .head (.begin life (established rfl)) (ih later)
      · rw [List.foldl_cons, task_ne here same]
        exact ih later

/-- Frames that wait are skipped. -/
theorem moves_skipAll {tasks : List LoopTask} (waits : ∀ task ∈ tasks, task.Waits)
    (skips : .closeCallback d ∈ tasks → Skips) {life : ConnectionLife} :
    ReflTransGen (Move Allowed Skips) (tasks.foldl (ConnectionLife.task d) life) life := by
  induction tasks generalizing life with
  | nil => exact .refl
  | cons task tasks ih =>
      obtain ⟨here, later⟩ := List.forall_mem_cons.mp waits
      rw [List.foldl_cons]
      refine (ih later fun member => skips (List.mem_cons_of_mem _ member)).trans ?_
      cases kind : task.kind with
      | none =>
          unfold ConnectionLife.task
          rw [kind]
      | some key =>
          obtain ⟨c, lifeKind⟩ := key
          by_cases same : d = c
          · subst same
            rw [task_self kind]
            cases task with
            | handleEvent | handler =>
                cases kind
                exact .single (.finish life)
            | closeCallback =>
                cases kind
                exact .single (.skip life (skips (List.mem_cons_self ..)))
            | nextIdle | running => cases kind
            | _ => exact here.elim
          · rw [task_ne kind same]

theorem Touched.life (touched : Touched s c t) : t.life d = s.life d := by
  rcases touched with rfl | ⟨nowMs, rfl⟩
  · rfl
  · by_cases same : d = c
    · subst same
      exact life_modify_self _
    · exact life_modify_ne _ same

/-- A task that is taken off the stack moves the life of its connection. -/
theorem Does.moves (does : Does s loop task t) (placed : s.Placed) (fits : s.Fits loop task)
    (made : s.Made d)
    (established : ∀ c, task.kind = some (c, .busy) → (s.conns c).state ≠ .connecting) :
    ReflTransGen (Move Allowed Skips) ((s.life d).task d task) (t.life d) := by
  have member : ∀ {c kind}, task.kind = some (c, kind) → (s.conns c).loop ∈ s.loops :=
    fun own => placed.homes _ (fits.owner _ _ own)
  cases does with
  | establish c =>
      rw [connectEstablished, life_require, life_push (s := s.modify c _) (member rfl),
        foldl_callbackFrames]
      exact moves_modify rfl (.establish _)
  | handleEvent c revents =>
      rw [TcpServer.handleEvent, life_push (member rfl)]
      refine (moves_finish rfl).trans (moves_beginAll ?_)
      intro task found
      obtain ⟨callback, _, rfl⟩ := List.mem_map.mp found
      refine ⟨c, rfl, ?_⟩
      rintro rfl
      exact established d rfl
  | close c opened =>
      rw [life_require, life_push (s := s.modify c _) (member rfl), List.foldl_append,
        foldl_callbackFrames, List.foldl_cons, List.foldl_nil]
      refine moves_modify_task rfl rfl ?_
      exact .close _ opened
  | finish busy touched =>
      rw [touched.life]
      exact moves_finish busy
  | callBack talks touched =>
      rw [life_push (touched.mem_loops (member talks.kind)), List.foldl_cons, List.foldl_nil,
        touched.life]
      exact moves_finish talks.kind
  | @callClose c task t talks touched =>
      have same : task.kind = (LoopTask.handleClose c).kind := talks.kind
      rw [life_push (touched.mem_loops (member talks.kind)), List.foldl_cons, List.foldl_nil,
        touched.life, task_congr same]
  | wantWrite c connected =>
      exact (moves_finish rfl).trans (moves_changeEvents (.enableWriting _ connected))
  | send c connected =>
      rw [life_queueInLoop (member rfl)]
      exact .refl
  | @write c t touched writing =>
      have here := touched.mem_loops (member rfl)
      rw [life_queueInLoop (s := t.changeEvents c _) here]
      refine (moves_finish rfl).trans (.trans ?_ (moves_begin rfl ?_))
      · rw [← touched.life]
        exact moves_changeEvents (.disableWriting _ writing)
      · have same : ((t.changeEvents c .disableWriting).conns c).state = (s.conns c).state := by
          refine Eq.trans ?_ (congrArg ConnectionLife.state (touched.life (d := c)))
          change (Function.update t.conns c _ c).state = _
          rw [Function.update_self]
          rfl
        rw [same]
        exact established c rfl
  | writeComplete c =>
      rw [life_push fits.member]
      exact moves_finish rfl
  | ask c =>
      rw [closeCallback, life_runInLoop s.base_mem_loops]
      exact .refl
  | unlist c listed =>
      have own := (placed.listed_iff (fits.owner c _ rfl)).mp listed
      rw [life_queueInLoop (s := s.eraseConnection _) (member rfl)]
      by_cases same : d = c
      · subst same
        rw [life_eraseConnection_self, task_self rfl, task_self rfl]
        exact .single (.unlist _ (decide_eq_true own))
      · rw [placed.life_eraseConnection made (fits.owner c _ rfl) same, task_ne rfl same,
          task_ne rfl same]
  | ignore c missing =>
      have gone := missing ∘ (placed.listed_iff (fits.owner c _ rfl)).mpr
      by_cases same : d = c
      · subst same
        rw [task_self rfl]
        exact .single (.ignore _ (decide_eq_false gone))
      · rw [task_ne rfl same]
  | destroyConnected c connected =>
      rw [life_push (s := s.modify c _) (member rfl), List.foldl_append, foldl_callbackFrames,
        List.foldl_cons, List.foldl_nil]
      refine moves_modify_task rfl rfl ?_
      exact .destroyConnected _ connected
  | destroy c ended =>
      rw [life_push (s := s.modify c _) (member rfl), List.foldl_cons, List.foldl_nil]
      refine moves_modify_task rfl rfl ?_
      exact .destroy _ ended
  | remove c => exact moves_modify rfl (.remove _)
  | rest free => rw [task_free free]
  | check | advance =>
      rw [life_push s.base_mem_loops]
      exact .refl
  | @expire name entry listed =>
      have pushed : (s.push .base [.nextIdle name]).life d = s.life d := by
        rw [life_push s.base_mem_loops]
        rfl
      rw [task_free rfl, ← pushed]
      exact moves_forceClose (s := s.push .base _) (placed.homes _ (placed.table _ listed).1) _
  | lose => exact .refl

theorem life_addConnection (placed : s.Placed) (made : s.Made d) (sockfd : Nat) (nowMs : Int) :
    (s.addConnection sockfd nowMs).life d = s.life d := by
  have older : d ≠ s.nextConnId := Nat.ne_of_lt made.2
  have loops := placed.loops_addConnection sockfd nowMs
  have conn : (s.addConnection sockfd nowMs).conns d = s.conns d := Function.update_of_ne older _ _
  have names : connName s.name d ≠ connName s.name s.nextConnId := fun same =>
    older (connName_injective placed.short (Nat.lt_trans made.2 placed.few) placed.few same)
  have table : (connName s.name d, d) ∈ (s.addConnection sockfd nowMs).connections.entries ↔
      (connName s.name d, d) ∈ s.connections.entries := by
    refine SortedMap.mem_insert.trans ?_
    simp only [Prod.mk.injEq, names, false_and, ne_eq, not_false_eq_true, and_true, false_or]
    rfl
  unfold life pendingOf
  rw [conn, loops, ConnectionLife.mk.injEq]
  exact ⟨rfl, rfl, rfl, decide_eq_decide.mpr table, rfl, rfl⟩

/-- Every step of the server moves the lives of the connections that it has. -/
theorem moves_step {event : Event} {next : TcpServer} (placed : s.Placed) (made : s.Made d)
    (established : ∀ c, s.Made c → 0 < (s.life c).pending .busy → (s.conns c).state ≠ .connecting)
    (registered : ∀ c, s.Made c → (s.conns c).channel.index = .added →
      (s.conns c).state ≠ .connecting)
    (allowed : ∀ c, event = .shutdownStores c → Allowed (s.conns c).state)
    (skips : ∀ loop, event = .callbackThrows loop → .closeCallback d ∈ s.unwound loop → Skips)
    (taken : s.step event = some next) :
    ReflTransGen (Move Allowed Skips) (s.life d) (next.life d) := by
  cases steps_of_step taken with
  | @accept sockfd nowMs few _ =>
      rw [newConnection, life_runInLoop (placed.getNextLoop_mem sockfd nowMs),
        life_addConnection placed made, task_ne rfl (Nat.ne_of_lt made.2)]
  | @epollWait loop active polled _ =>
      cases active with
      | nil =>
          have same : s.push loop [] = s := by
            rw [push, Workers.push, List.nil_append]
            exact congrArg (fun work => { s with work := work })
              (Function.update_eq_self loop s.work)
          rw [List.map_nil, same]
      | cons first rest =>
          obtain ⟨firstMade, rfl, _⟩ := polled first (List.mem_cons_self ..)
          rw [life_push (placed.homes _ firstMade)]
          refine moves_beginAll fun task member => ?_
          obtain ⟨entry, listed, rfl⟩ := List.mem_map.mp member
          obtain ⟨madeAlso, _, added⟩ := polled entry listed
          refine ⟨entry.1, rfl, ?_⟩
          rintro rfl
          exact registered _ madeAlso added
  | @start loop work started =>
      obtain ⟨task, member⟩ := Workers.exists_of_start started
      rw [life_start (placed.fits loop task member).member started]
  | @proceed loop nowMs outcome task work popped =>
      have top := (Workers.mem_pop popped).1
      have fits := placed.fits loop task top
      rw [life_pop fits.member popped]
      refine (does_perform nowMs outcome task).moves (placed.pop popped)
        ((SameFrame.refl.working work).fits fits) made ?_
      intro c busy
      exact established c (fits.owner c _ busy) (pending_of_mem fits.member top busy)
  | @callbackReturns loop work popped =>
      obtain ⟨top, _⟩ := Workers.mem_pop popped
      rw [life_pop (placed.fits loop _ top).member popped]
      exact .refl
  | @callbackThrows loop work popped =>
      have member := (placed.fits loop _ (Workers.mem_pop popped).1).member
      have waits := (placed.waits_of_pop popped).1
      have unwound : s.unwound loop = (work loop).stack.takeWhile fun task => !task.catches := by
        obtain ⟨rest, stack, rfl⟩ := Workers.pop_eq_some popped
        rw [TcpServer.unwound, stack, Function.update_self, List.tail_cons]
      have skipped := skips loop rfl
      rw [unwound] at skipped
      rw [life_pop member popped, life_unwind (s := { s with work := work }) member]
      exact moves_skipAll
        (fun task found => waits task ((List.takeWhile_prefix _).subset found)) skipped
  | @send current c outcome madeAlso _ =>
      unfold send
      split
      · next connected =>
          have established : (s.conns c).state ≠ .connecting := by
            rw [connected]
            exact StateE.noConfusion
          have begins : ReflTransGen (Move Allowed Skips) (s.life d)
            ((s.life d).task d (.sendInLoop c)) := moves_begin rfl established
          split
          · refine begins.trans ((does_sendInLoop connected outcome).moves placed
              (placed.own madeAlso rfl rfl) made ?_)
            intro e busy
            cases busy
            exact established
          · rw [life_queueInLoop (placed.homes c madeAlso)]
            exact begins
      · exact .refl
  | @shutdown c madeAlso _ =>
      unfold shutdown
      split
      · next connected =>
          rw [life_push (s := s.modify c _) (placed.homes c madeAlso), List.foldl_cons,
            List.foldl_nil]
          exact moves_disconnect connected rfl
      · exact .refl
  | shutdownReads _ connected => exact moves_shutdownReads connected
  | @shutdownStores c late =>
      exact moves_storeDisconnecting (placed.homes c (placed.late c late)) late (allowed c rfl)
  | @forceClose current c madeAlso _ => exact moves_forceClose (placed.homes c madeAlso) current
  | checkNothing _ => exact .refl
  | checkIdle _ _ =>
      rw [life_push s.base_mem_loops]
      exact .refl

end Functions

end TcpServer

end RpcFramework
