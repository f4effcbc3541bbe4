import RpcFramework.Network.ServerPlaces

/-!
# What the functions of a server do to its loops

A function runs on one loop.  It calls others there, on the stack of its loop, and it
leaves tasks at the ends of the queues of any loops.  So every task stays in its place,
whatever the loops do in turn.
-/

namespace RpcFramework

open TcpConnection

namespace TcpServer

section Loops

variable {s t : TcpServer} {c : ConnId} {loop : ServerLoop}

/-- What a function that runs on a loop does: it puts frames on the stack of the loop and
tasks at the ends of queues.  Only the base loop takes entries out of the table and loses
its iterator, and no assertion fails. -/
structure Acts (loop : ServerLoop) (new : List LoopTask) (s t : TcpServer) : Prop where
  shutdowns : t.shutdowns = s.shutdowns
  aborted : t.aborted = s.aborted
  table : ∀ entry ∈ t.connections.entries, entry ∈ s.connections.entries
  lost : s.iteratorLost = true → t.iteratorLost = true
  aside : loop ≠ .base → t.connections = s.connections ∧ t.iteratorLost = s.iteratorLost
  stack : (t.work loop).stack = new ++ (s.work loop).stack
  otherStacks : ∀ other, other ≠ loop → (t.work other).stack = (s.work other).stack
  queue : ∀ other, ∃ tasks, (t.work other).queue = (s.work other).queue ++ tasks ∧
    ∀ task ∈ tasks, s.Fits other task ∧ task.kind ≠ none
  fits : ∀ task ∈ new, s.Fits loop task
  waits : ∀ task ∈ new.tail, task.Waits

namespace Acts

variable {new tasks : List LoopTask} {task : LoopTask} {other : ServerLoop}

theorem refl : Acts loop [] s s where
  shutdowns := rfl
  aborted := rfl
  table _ := id
  lost := id
  aside _ := ⟨rfl, rfl⟩
  stack := rfl
  otherStacks _ _ := rfl
  queue _ := ⟨[], (List.append_nil _).symm, List.forall_mem_nil _⟩
  fits := List.forall_mem_nil _
  waits := List.forall_mem_nil _

theorem modify (acts : Acts loop new s t) (f : ServerConnection → ServerConnection) :
    Acts loop new s (t.modify c f) :=
  { acts with }

theorem require (acts : Acts loop new s t) {condition : Bool} (holds : condition = true) :
    Acts loop new s (t.require condition) :=
  { acts with
    aborted := by
      rw [holds, TcpServer.require]
      exact (Bool.or_false _).trans acts.aborted }

theorem push (acts : Acts loop new s t) (fits : ∀ task ∈ tasks, s.Fits loop task)
    (waits : ∀ task ∈ (tasks ++ new).tail, task.Waits) :
    Acts loop (tasks ++ new) s (t.push loop tasks) :=
  { acts with
    stack := by
      rw [work_push, Workers.push_self, acts.stack, List.append_assoc]
    otherStacks := fun other differs => by
      rw [work_push, Workers.push_of_ne differs]
      exact acts.otherStacks other differs
    queue := fun other => by
      have same : ((t.push loop tasks).work other).queue = (t.work other).queue := by
        by_cases own : other = loop
        · subst own
          rw [work_push, Workers.push_self]
        · rw [work_push, Workers.push_of_ne own]
      rw [same]
      exact acts.queue other
    fits := List.forall_mem_append.mpr ⟨fits, acts.fits⟩
    waits := waits }

/-- A function is called. -/
theorem call (acts : Acts loop new s t) (fits : s.Fits loop task)
    (waits : ∀ frame ∈ new, frame.Waits) : Acts loop (task :: new) s (t.push loop [task]) :=
  acts.push (List.forall_mem_singleton.mpr fits) waits

/-- The connection callback is called, and the frames wait behind it. -/
theorem frames (acts : Acts loop [] s t) (member : loop ∈ s.loops)
    (fits : ∀ task ∈ tasks, s.Fits loop task) (waits : ∀ task ∈ tasks, task.Waits) :
    Acts loop (s.callbackFrames ++ tasks) s (t.push loop (s.callbackFrames ++ tasks)) := by
  have pushed := @Acts.push s t loop [] (s.callbackFrames ++ tasks) acts
  rw [List.append_nil] at pushed
  cases calls : s.connectionCallback with
  | true =>
      simp only [callbackFrames, calls, if_true] at pushed ⊢
      exact pushed (List.forall_mem_cons.mpr ⟨fits_running member, fits⟩) waits
  | false =>
      simp only [callbackFrames, calls, Bool.false_eq_true, if_false] at pushed ⊢
      exact pushed fits fun task member => waits task (List.mem_of_mem_tail member)

theorem queueInLoop (acts : Acts loop new s t) (fits : s.Fits other task) (own : task.kind ≠ none) :
    Acts loop new s (t.queueInLoop other task) := by
  have sameStack : ∀ any, ((t.queueInLoop other task).work any).stack = (t.work any).stack := by
    intro any
    by_cases same : any = other
    · subst same
      rw [work_queueInLoop, Workers.enqueue_self]
    · rw [work_queueInLoop, Workers.enqueue_of_ne same]
  refine { acts with stack := ?_, otherStacks := ?_, queue := ?_ }
  · rw [sameStack]
    exact acts.stack
  · intro any differs
    rw [sameStack]
    exact acts.otherStacks any differs
  · intro any
    obtain ⟨more, queue, fitting⟩ := acts.queue any
    by_cases same : any = other
    · subst same
      refine ⟨more ++ [task], ?_, ?_⟩
      · rw [work_queueInLoop, Workers.enqueue_self, queue, List.append_assoc]
      · exact List.forall_mem_append.mpr ⟨fitting, List.forall_mem_singleton.mpr ⟨fits, own⟩⟩
    · refine ⟨more, ?_, fitting⟩
      rw [work_queueInLoop, Workers.enqueue_of_ne same, queue]

/-- A task is given to a loop: the loop that gives it to itself calls it. -/
theorem runInLoop (acts : Acts loop new s t) (current : Option ServerLoop)
    (here : current = some other → other = loop) (fits : s.Fits other task)
    (own : task.kind ≠ none) (waits : ∀ frame ∈ new, frame.Waits) :
    ∃ more, Acts loop (more ++ new) s (t.runInLoop current other task) ∧
      (more ≠ [] → current = some loop) := by
  by_cases same : current = some other
  · obtain rfl := here same
    have given : t.runInLoop current other task = t.push other [task] := by
      rw [TcpServer.runInLoop, Workers.give, if_pos same]
      rfl
    rw [given]
    exact ⟨[task], acts.call fits waits, fun _ => same⟩
  · have given : t.runInLoop current other task = t.queueInLoop other task := by
      rw [TcpServer.runInLoop, Workers.give, if_neg same]
      rfl
    rw [given]
    exact ⟨[], acts.queueInLoop fits own, fun some_more => absurd rfl some_more⟩

theorem eraseConnection (acts : Acts .base new s t) (name : List Char) :
    Acts .base new s (t.eraseConnection name) :=
  { acts with
    table := fun entry member => acts.table entry (SortedMap.mem_erase.mp member).1
    aside := fun elsewhere => absurd rfl elsewhere }

end Acts

theorem Placed.acts (placed : s.Placed) {new : List LoopTask}
    (waits : new ≠ [] → ∀ task ∈ (s.work loop).stack, task.Waits) (same : SameFrame t s)
    (acts : Acts loop new s t) : t.Placed := by
  refine placed.of_same same ?_ ?_ ?_ ?_
  · intro other task member
    obtain ⟨tasks, queue, fits⟩ := acts.queue other
    have stacked : task ∈ (t.work other).stack → s.Fits other task := by
      intro here
      by_cases own : other = loop
      · subst own
        rw [acts.stack] at here
        rcases List.mem_append.mp here with pushed | old
        · exact acts.fits task pushed
        · exact placed.fits other task (List.mem_append_left _ old)
      · rw [acts.otherStacks other own] at here
        exact placed.fits other task (List.mem_append_left _ here)
    rcases List.mem_append.mp member with here | later
    · exact stacked here
    · rw [queue] at later
      rcases List.mem_append.mp later with old | queued
      · exact placed.fits other task (List.mem_append_right _ old)
      · exact (fits task queued).1
  · intro other task member
    by_cases own : other = loop
    · subst own
      rw [acts.stack] at member
      cases top : new with
      | nil =>
          rw [top] at member
          exact placed.waits other task member
      | cons frame frames =>
          have behind := acts.waits
          rw [top] at member behind
          rcases List.mem_append.mp member with pushed | old
          · exact behind task pushed
          · exact waits (by simp [top]) task old
    · rw [acts.otherStacks other own] at member
      exact placed.waits other task member
  · rw [acts.shutdowns]
    exact placed.late
  · exact fun entry member => placed.table entry (acts.table entry member)

/-! ## What the functions do -/

section Functions

variable {task : LoopTask}

theorem Placed.closing (placed : s.Placed) (made : s.Made c) :
    s.Fits (s.conns c).loop (.handleClose c) := placed.own made rfl rfl

/-- The state of the connection changes, and its loop is to close it. -/
theorem Acts.forceClose {new : List LoopTask} (acts : Acts loop new s t) (placed : s.Placed)
    (made : s.Made c) (homes : (t.conns c).loop = (s.conns c).loop) (current : Option ServerLoop)
    (here : current = some (s.conns c).loop → (s.conns c).loop = loop)
    (waits : ∀ frame ∈ new, frame.Waits) :
    ∃ more, Acts loop (more ++ new) s (t.forceClose current c) ∧
      (more ≠ [] → current = some loop) := by
  unfold TcpServer.forceClose
  split
  · rw [homes]
    exact (acts.modify _).runInLoop current here (placed.closing made) (Option.some_ne_none _) waits
  · exact ⟨[], acts, fun some_more => absurd rfl some_more⟩

theorem Touched.acts (touched : Touched s c t) : Acts loop [] s t := by
  rcases touched with rfl | ⟨nowMs, rfl⟩
  · exact .refl
  · exact Acts.refl.modify _

/-- The states of a connection in which a task of it can be pending. -/
def Ready (s : TcpServer) : LoopTask → Prop
  | .connectEstablished c => (s.conns c).state = .connecting
  | .handleClose c => (s.conns c).state ≠ .connecting
  | .connectDestroyed c => (s.conns c).state ≠ .connected
  | _ => True

/-- What a task does on the loop that it has to run on. -/
theorem Does.acts (does : Does s loop task t) (placed : s.Placed) (fits : s.Fits loop task)
    (ready : s.Ready task) : ∃ new, Acts loop new s t := by
  have none_wait := List.forall_mem_nil LoopTask.Waits
  cases does with
  | establish c =>
      obtain rfl : (s.conns c).loop = loop := fits.home
      rw [connectEstablished, ← List.append_nil s.callbackFrames]
      exact ⟨_, ((Acts.refl.modify _).frames fits.member (List.forall_mem_nil _) none_wait).require
        (beq_iff_eq.mpr ready)⟩
  | handleEvent c revents =>
      obtain rfl : (s.conns c).loop = loop := fits.home
      refine ⟨_, Acts.refl.push ?_ ?_⟩
      · intro task member
        obtain ⟨callback, _, rfl⟩ := List.mem_map.mp member
        exact placed.own (fits.owner c _ rfl) rfl rfl
      · intro task member
        rw [List.append_nil] at member
        obtain ⟨callback, _, rfl⟩ := List.mem_map.mp (List.mem_of_mem_tail member)
        trivial
  | close c opened =>
      obtain rfl : (s.conns c).loop = loop := fits.home
      have asks : s.Fits (s.conns c).loop (.closeCallback c) :=
        placed.own (fits.owner c _ rfl) rfl rfl
      refine ⟨_, ((Acts.refl.modify _).frames fits.member (List.forall_mem_singleton.mpr asks)
        (List.forall_mem_singleton.mpr trivial)).require ?_⟩
      cases state : (s.conns c).state with
      | connecting => exact absurd state ready
      | disconnected => exact absurd state opened
      | connected | disconnecting => rfl
  | finish busy touched => exact ⟨[], touched.acts⟩
  | callBack talks touched =>
      rw [fits.loop_of_busy talks.kind]
      exact ⟨_, touched.acts.call (fits_running fits.member) none_wait⟩
  | callClose talks touched =>
      obtain rfl := fits.loop_of_busy talks.kind
      exact ⟨_, touched.acts.call (placed.closing (fits.owner _ _ talks.kind)) none_wait⟩
  | wantWrite | remove => exact ⟨[], Acts.refl.modify _⟩
  | send c connected =>
      refine ⟨[], Acts.refl.queueInLoop ?_ (Option.some_ne_none _)⟩
      exact placed.own (fits.owner c _ rfl) rfl rfl
  | write touched writing =>
      refine ⟨[], (touched.acts.modify _).queueInLoop ?_ (Option.some_ne_none _)⟩
      exact placed.own (fits.owner _ _ rfl) rfl rfl
  | writeComplete => exact ⟨_, Acts.refl.call (fits_running fits.member) none_wait⟩
  | ask c =>
      have removes : s.Fits .base (.removeConnectionInLoop c) :=
        ⟨s.base_mem_loops, rfl, fun _ _ same => by cases same; exact fits.owner c _ rfl⟩
      obtain ⟨more, acts, _⟩ := Acts.refl.runInLoop (some loop)
        (fun same => (Option.some.inj same).symm) removes (Option.some_ne_none _) none_wait
      exact ⟨_, acts⟩
  | unlist c listed =>
      obtain rfl : ServerLoop.base = loop := fits.home
      refine ⟨[], (Acts.refl.eraseConnection _).queueInLoop ?_ (Option.some_ne_none _)⟩
      exact placed.own (fits.owner c _ rfl) rfl rfl
  | ignore | rest => exact ⟨[], .refl⟩
  | destroyConnected c connected => exact absurd connected ready
  | destroy c _ =>
      obtain rfl : (s.conns c).loop = loop := fits.home
      refine ⟨_, (Acts.refl.modify _).call ?_ none_wait⟩
      exact placed.own (fits.owner c _ rfl) rfl rfl
  | check name =>
      obtain rfl : ServerLoop.base = loop := fits.home
      exact ⟨_, Acts.refl.call (fits_idle rfl rfl) none_wait⟩
  | @expire name entry listed =>
      obtain rfl : ServerLoop.base = loop := fits.home
      have pushed : Acts .base [.nextIdle name] s (s.push .base [.nextIdle name]) :=
        Acts.refl.call (fits_idle rfl rfl) none_wait
      obtain ⟨more, acts, _⟩ := pushed.forceClose placed (placed.table _ listed).1 rfl (some .base)
        (fun same => (Option.some.inj same).symm) (List.forall_mem_singleton.mpr trivial)
      exact ⟨_, acts⟩
  | advance found =>
      obtain rfl : ServerLoop.base = loop := fits.home
      exact ⟨_, Acts.refl.call (fits_idle rfl rfl) none_wait⟩
  | lose missing =>
      obtain rfl : ServerLoop.base = loop := fits.home
      have same : Acts .base [] s s := .refl
      exact ⟨[], { same with
        lost := fun _ => rfl
        aside := fun elsewhere => absurd rfl elsewhere }⟩

theorem acts_send (placed : s.Placed) (made : s.Made c) (current : Option ServerLoop)
    (outcome : SocketOutcome) :
    ∃ new, Acts (s.conns c).loop new s (s.send current c outcome) ∧
      (new ≠ [] → current = some (s.conns c).loop) := by
  have fits : s.Fits (s.conns c).loop (.sendInLoop c) := placed.own made rfl rfl
  have nothing : ([] : List LoopTask) ≠ [] → current = some (s.conns c).loop :=
    fun some_more => absurd rfl some_more
  unfold TcpServer.send
  split
  · next connected =>
      split
      · next here =>
          obtain ⟨new, acts⟩ := (does_sendInLoop connected outcome).acts placed fits trivial
          exact ⟨new, acts, fun _ => here⟩
      · exact ⟨[], Acts.refl.queueInLoop fits (Option.some_ne_none _), nothing⟩
  · exact ⟨[], .refl, nothing⟩

theorem acts_shutdown (placed : s.Placed) (made : s.Made c) :
    ∃ new, Acts (s.conns c).loop new s (s.shutdown c) := by
  unfold TcpServer.shutdown
  split
  · refine ⟨_, (Acts.refl.modify _).call ?_ (List.forall_mem_nil _)⟩
    exact placed.own made rfl rfl
  · exact ⟨[], .refl⟩

/-- The user calls a function of a connection. -/
def Event.Calls (c : ConnId) : Event → Prop
  | .send _ d _ | .shutdown d | .forceClose _ d => d = c
  | _ => False

/-- A function that the user calls leaves frames behind only on a loop where it may be called. -/
theorem Placed.acts_call (placed : s.Placed) {event : Event} {next : TcpServer}
    (calls : event.Calls c) (taken : s.step event = some next) : s.Made c ∧
      ∃ new, Acts (s.conns c).loop new s next ∧
        (new ≠ [] → s.callable (some (s.conns c).loop) = true) := by
  cases steps_of_step taken with
  | @send current c outcome made callable =>
      cases calls
      obtain ⟨new, acts, here⟩ := acts_send placed made current outcome
      exact ⟨made, new, acts, fun some_more => here some_more ▸ callable⟩
  | @shutdown c made callable =>
      cases calls
      obtain ⟨new, acts⟩ := acts_shutdown placed made
      exact ⟨made, new, acts, fun _ => callable⟩
  | @forceClose current c made callable =>
      cases calls
      obtain ⟨more, acts, here⟩ :=
        Acts.refl.forceClose placed made rfl current (fun _ => rfl) (List.forall_mem_nil _)
      rw [List.append_nil] at acts
      exact ⟨made, more, acts, fun some_more => here some_more ▸ callable⟩
  | _ => exact calls.elim

theorem Placed.setShutdowns (placed : s.Placed) {ids : List ConnId} (made : ∀ c ∈ ids, s.Made c) :
    (s.setShutdowns ids).Placed :=
  placed.of_same ⟨rfl, rfl, rfl, fun _ => rfl⟩ placed.fits placed.waits made placed.table

theorem acts_storeDisconnecting (placed : s.Placed) (late : c ∈ s.shutdowns) :
    Acts loop [] (s.setShutdowns (s.shutdowns.erase c)) (s.storeDisconnecting c) := by
  have erased : (s.setShutdowns (s.shutdowns.erase c)).Placed :=
    placed.setShutdowns fun d member => placed.late d (List.mem_of_mem_erase member)
  refine (Acts.refl.modify _).queueInLoop ?_ (Option.some_ne_none _)
  exact erased.own (placed.late c late) rfl rfl

end Functions

/-- A new connection goes to its loop; the base loop, if it is that loop, polls. -/
theorem acts_newConnection (placed : s.Placed) (few : s.nextConnId < 2 ^ 31 - 1) (sockfd : Nat)
    (nowMs : Int) :
    ∃ new, Acts s.threadPool.getNextLoop.1 new (s.addConnection sockfd nowMs)
        (s.newConnection sockfd nowMs) ∧
      (new ≠ [] → s.threadPool.getNextLoop.1 = .base) := by
  have added := placed.addConnection few sockfd nowMs
  have made : (s.addConnection sockfd nowMs).Made s.nextConnId :=
    ⟨placed.first, Nat.lt_succ_self _⟩
  have own : ((s.addConnection sockfd nowMs).conns s.nextConnId).loop =
      s.threadPool.getNextLoop.1 := by
    change (Function.update s.conns s.nextConnId _ s.nextConnId).loop = _
    rw [Function.update_self]
  have fits : Fits (s.addConnection sockfd nowMs) _ (.connectEstablished s.nextConnId) :=
    added.own made rfl rfl
  rw [own] at fits
  obtain ⟨more, acts, current⟩ := Acts.refl.runInLoop (some .base) (fun _ => rfl) fits
    (Option.some_ne_none _) (List.forall_mem_nil _)
  rw [List.append_nil] at acts
  exact ⟨more, acts, fun some_more => (Option.some.inj (current some_more)).symm⟩

theorem Placed.newConnection (placed : s.Placed) (few : s.nextConnId < 2 ^ 31 - 1)
    (polls : s.polls .base = true) (sockfd : Nat) (nowMs : Int) :
    (s.newConnection sockfd nowMs).Placed := by
  obtain ⟨new, acts, base⟩ := acts_newConnection placed few sockfd nowMs
  refine (placed.addConnection few sockfd nowMs).acts ?_ (SameFrame.refl.given _ _) acts
  intro some_more
  rw [base some_more]
  exact placed.waits_of_polls polls

end Loops

end TcpServer

end RpcFramework
