import RpcFramework.Network.ServerDrain

/-!
# The idle check and the loops of the pool

The idle check of a server walks over the table of the connections and closes those
that have been silent for too long.  Closing a connection takes it out of the table.
With threads in the pool the connections live on other loops, and the walk is over
before the base loop erases anything.  Without threads the whole way from
`forceClose` to the erased entry runs inside the walk, and its iterator is lost, unless
the connection callback throws and with it ends the walk.
-/

namespace RpcFramework

open TcpConnection StepRun

namespace TcpServer

variable {name : List Char} {numThreads : Int} {connectionCallback : Bool}
variable {idleTimeoutSeconds : Int} {events : List Event}

/-! ## The loops of the connections -/

section RoundRobin

variable {s next : TcpServer} {n : Nat} {event : Event}

/-- The pool gives out its loops in turn. -/
structure RoundRobin (n : Nat) (s : TcpServer) : Prop where
  loops : s.threadPool.loops = n
  first : 1 ≤ s.nextConnId
  turn : s.threadPool.next = (s.nextConnId - 1) % n
  given : ∀ c, s.Made c → (s.conns c).loop = .io ((c - 1) % n)

theorem getNextLoop_of_pos {pool : EventLoopThreadPool} {k : Nat} (some_loops : 0 < pool.loops)
    (turn : pool.next = k % pool.loops) :
    pool.getNextLoop = (.io (k % pool.loops), ⟨pool.loops, (k + 1) % pool.loops⟩) := by
  have bound : k % pool.loops < pool.loops := Nat.mod_lt k some_loops
  have after : (k + 1) % pool.loops =
      if k % pool.loops + 1 ≥ pool.loops then 0 else k % pool.loops + 1 := by
    rw [← Nat.mod_add_mod]
    split
    · next last =>
        have whole : k % pool.loops + 1 = pool.loops := Nat.le_antisymm bound last
        rw [whole, Nat.mod_self]
    · next more => exact Nat.mod_eq_of_lt (Nat.lt_of_not_le more)
  unfold EventLoopThreadPool.getNextLoop
  rw [if_neg (Nat.ne_of_gt some_loops), turn, after]

theorem RoundRobin.step (pos : 0 < n) (robin : RoundRobin n s) (taken : s.step event = some next) :
    RoundRobin n next := by
  obtain ⟨loops, first, turn, given⟩ := robin
  rcases newConnection_or_sameFrame taken with ⟨sockfd, nowMs, rfl⟩ | same
  · have pool := getNextLoop_of_pos (k := s.nextConnId - 1) (loops ▸ pos) (loops ▸ turn)
    rw [loops] at pool
    refine ⟨?_, Nat.le_succ_of_le first, ?_, ?_⟩
    · change s.threadPool.getNextLoop.2.loops = n
      rw [pool]
    · change s.threadPool.getNextLoop.2.next = _
      rw [pool]
      change (s.nextConnId - 1 + 1) % n = (s.nextConnId + 1 - 1) % n
      rw [Nat.sub_add_cancel first, Nat.add_sub_cancel]
    · intro c made
      change (Function.update s.conns s.nextConnId _ c).loop = _
      by_cases newest : c = s.nextConnId
      · subst newest
        rw [Function.update_self, pool]
      · rw [Function.update_of_ne newest]
        exact given c ⟨made.1, Nat.lt_of_le_of_ne (Nat.le_of_lt_succ made.2) newest⟩
  · refine ⟨same.threadPool ▸ loops, same.nextConnId ▸ first, ?_, ?_⟩
    · rw [same.threadPool, same.nextConnId]
      exact turn
    · intro c made
      rw [Made, same.nextConnId] at made
      rw [same.homes]
      exact given c made

/-- The connections of a server with threads are spread over them in turn, and no
connection ever changes its loop. -/
theorem loop_in_turn (threads : 0 < numThreads) (reached : run? TcpServer.step
      (started name numThreads connectionCallback idleTimeoutSeconds) events = some s)
    {c : ConnId} (made : s.Made c) :
    (s.conns c).loop = .io ((c - 1) % numThreads.toNat) := by
  have pos : 0 < numThreads.toNat := by omega
  have start : RoundRobin numThreads.toNat
      (started name numThreads connectionCallback idleTimeoutSeconds) :=
    ⟨rfl, Nat.le_refl 1, (Nat.zero_mod _).symm,
      fun c made => absurd made.1 (Nat.not_le_of_lt made.2)⟩
  exact (run?_invariant (fun _ _ _ => RoundRobin.step pos) start reached).given c made

theorem loop_in_turn_serveOne : served.Made 1 ∧ (served.conns 1).loop = .io 0 :=
  have made : served.Made 1 := by decide
  ⟨made, loop_in_turn (by decide) serveOne_reaches made⟩

end RoundRobin

/-! ## The walk over the table with threads -/

/-- What the base loop is in the middle of, if the connections live on other loops: at
most one functor, and no erased entry is under the iterator. -/
inductive Sweep (s : TcpServer) : List LoopTask → Prop
  | done : Sweep s []
  | removes (c : ConnId) : Sweep s [.removeConnectionInLoop c]
  | checks {name : List Char} (listed : s.Listed name) : Sweep s [.checkIdleTimeout name]
  | advances {name : List Char} (listed : s.Listed name) : Sweep s [.nextIdle name]

structure Swept (s : TcpServer) : Prop where
  threads : 0 < s.threadPool.loops
  elsewhere : ∀ c, s.Made c → (s.conns c).loop ≠ .base
  sweep : Sweep s (s.work .base).stack
  queue : ∀ task ∈ (s.work .base).queue, ∃ c, task = .removeConnectionInLoop c
  kept : s.iteratorLost = false

section Swept

variable {s t next : TcpServer} {c : ConnId} {loop : ServerLoop} {event : Event}

theorem Sweep.congr {stack : List LoopTask} (sweep : Sweep s stack)
    (same : t.connections = s.connections) : Sweep t stack := by
  have listed : ∀ {name}, s.Listed name → t.Listed name := by
    rintro name ⟨entry, member, is⟩
    exact ⟨entry, same ▸ member, is⟩
  cases sweep with
  | done => exact .done
  | removes c => exact .removes c
  | checks is => exact .checks (listed is)
  | advances is => exact .advances (listed is)

/-- The base loop is at another place, the connections are where they were. -/
theorem Swept.of_same (swept : s.Swept) (same : SameFrame t s)
    (kept : t.iteratorLost = s.iteratorLost) (queue : (t.work .base).queue = (s.work .base).queue)
    (sweep : Sweep t (t.work .base).stack) : t.Swept := by
  refine ⟨same.threadPool ▸ swept.threads, ?_, sweep, queue ▸ swept.queue, kept ▸ swept.kept⟩
  intro c made
  rw [same.homes]
  exact swept.elsewhere c (same.made.mp made)

/-- Another loop goes on with its tasks. -/
theorem Swept.working (swept : s.Swept) {work : Workers ServerLoop LoopTask}
    (base : work .base = s.work .base) : Swept { s with work := work } := by
  refine swept.of_same (SameFrame.refl.working work) rfl (congrArg Worker.queue base) ?_
  change Sweep _ (work .base).stack
  rw [base]
  exact swept.sweep.congr rfl

/-- All that the base loop has to do for connections of other loops is to remove them. -/
theorem Swept.removes_of_fits (swept : s.Swept) {task : LoopTask} (fits : s.Fits .base task)
    (own : task.kind ≠ none) : ∃ c, task = .removeConnectionInLoop c := by
  cases task with
  | removeConnectionInLoop c => exact ⟨c, rfl⟩
  | checkIdleTimeout | nextIdle | running => exact absurd rfl own
  | connectEstablished c | handleEvent c _ | handleClose c | sendInLoop c | shutdownInLoop c
  | writeComplete c | handler c _ | closeCallback c | connectDestroyed c | removeChannel c =>
      exact absurd fits.home (swept.elsewhere c (fits.owner c _ rfl))

/-- A function on another loop leaves the walk alone, but it may queue a connection that is
to be removed. -/
theorem Swept.of_acts (swept : s.Swept) (elsewhere : loop ≠ .base) {new : List LoopTask}
    (same : SameFrame t s) (acts : Acts loop new s t) : t.Swept := by
  obtain ⟨connections, kept⟩ := acts.aside elsewhere
  obtain ⟨tasks, queue, fits⟩ := acts.queue .base
  refine ⟨same.threadPool ▸ swept.threads, ?_, ?_, ?_, kept.trans swept.kept⟩
  · intro c made
    rw [same.homes]
    exact swept.elsewhere c (same.made.mp made)
  · rw [acts.otherStacks .base elsewhere.symm]
    exact swept.sweep.congr connections
  · rw [queue]
    intro task member
    rcases List.mem_append.mp member with old | queued
    · exact swept.queue task old
    · exact swept.removes_of_fits (fits task queued).1 (fits task queued).2

/-- The base loop does not handle events of connections, so it accepts between its functions
only. -/
theorem Swept.empty_of_polls (swept : s.Swept) (polls : s.polls .base = true) :
    (s.work .base).stack = [] := by
  have sweep := swept.sweep
  unfold TcpServer.polls at polls
  split at polls
  · next empty => exact empty
  · next stack =>
      rw [stack] at sweep
      cases sweep
  · cases polls

theorem Swept.newConnection (placed : s.Placed) (swept : s.Swept)
    (few : s.nextConnId < 2 ^ 31 - 1) (polls : s.polls .base = true) (sockfd : Nat)
    (nowMs : Int) : (s.newConnection sockfd nowMs).Swept := by
  have io : ∃ i, s.threadPool.getNextLoop.1 = .io i := by
    unfold EventLoopThreadPool.getNextLoop
    rw [if_neg (Nat.ne_of_gt swept.threads)]
    exact ⟨_, rfl⟩
  have elsewhere : s.threadPool.getNextLoop.1 ≠ .base := by
    obtain ⟨i, io⟩ := io
    rw [io]
    exact ServerLoop.noConfusion
  have added : (s.addConnection sockfd nowMs).Swept := by
    refine ⟨?_, ?_, ?_, swept.queue, swept.kept⟩
    · change 0 < s.threadPool.getNextLoop.2.loops
      rw [(getNextLoop_spec placed.next).1]
      exact swept.threads
    · intro c made
      change (Function.update s.conns s.nextConnId _ c).loop ≠ _
      by_cases newest : c = s.nextConnId
      · subst newest
        rw [Function.update_self]
        exact elsewhere
      · rw [Function.update_of_ne newest]
        exact swept.elsewhere c ⟨made.1, Nat.lt_of_le_of_ne (Nat.le_of_lt_succ made.2) newest⟩
    · change Sweep _ (s.work .base).stack
      rw [swept.empty_of_polls polls]
      exact .done
  obtain ⟨new, acts, _⟩ := acts_newConnection placed few sockfd nowMs
  exact added.of_acts elsewhere (SameFrame.refl.given _ _) acts

/-- The base loop has nothing else to do when it goes on with the walk. -/
theorem Swept.pushed (swept : s.Swept) (empty : (s.work .base).stack = []) {task : LoopTask}
    (sweep : Sweep s [task]) : (s.push .base [task]).Swept := by
  have base : (s.push .base [task]).work .base = ⟨[task], (s.work .base).queue⟩ := by
    rw [work_push, Workers.push_self, empty]
    rfl
  refine swept.of_same (SameFrame.refl.pushed _) rfl (by rw [base]) ?_
  rw [base]
  exact sweep.congr rfl

/-- A connection is taken out of the table between two walks. -/
theorem Swept.removeConnectionInLoop (swept : s.Swept) (empty : (s.work .base).stack = [])
    (made : s.Made c) : (s.removeConnectionInLoop c).Swept := by
  unfold TcpServer.removeConnectionInLoop
  dsimp only
  split
  · have base : (((s.eraseConnection (connName s.name c)).queueInLoop (s.conns c).loop
        (.connectDestroyed c)).work .base) = s.work .base :=
      Workers.enqueue_of_ne (swept.elsewhere c made).symm _
    refine swept.of_same ⟨rfl, rfl, rfl, fun _ => rfl⟩ rfl (congrArg Worker.queue base) ?_
    rw [base, empty]
    exact .done
  · exact swept

/-- The walk is at an entry of the table; a connection that it closes is closed on another
loop. -/
theorem Swept.checkIdleTimeout (placed : s.Placed) (swept : s.Swept)
    (empty : (s.work .base).stack = []) {name : List Char} (listed : s.Listed name)
    (nowMs : Int) : (s.checkIdleTimeout name nowMs).Swept := by
  have pushed := swept.pushed empty (.advances listed)
  unfold TcpServer.checkIdleTimeout
  split
  · exact swept
  · next id found =>
      have made := (placed.table _ (List.mem_of_find?_eq_some found)).1
      have placedAlso : (s.push .base [.nextIdle name]).Placed := by
        refine placed.acts ?_ (SameFrame.refl.pushed _)
          (Acts.refl.call (fits_idle rfl rfl) (List.forall_mem_nil _))
        rw [empty]
        exact fun _ => List.forall_mem_nil _
      dsimp only
      split
      · obtain ⟨more, acts, _⟩ := Acts.refl.forceClose placedAlso made rfl (some .base)
          (fun _ => rfl) (List.forall_mem_nil _)
        exact pushed.of_acts (pushed.elsewhere id made) (SameFrame.refl.forceClosed _) acts
      · exact pushed

/-- The walk goes on to an entry of the table. -/
theorem Swept.nextIdle (swept : s.Swept) (empty : (s.work .base).stack = [])
    {name : List Char} (listed : s.Listed name) : (s.nextIdle name).Swept := by
  unfold TcpServer.nextIdle
  rw [if_pos listed]
  split
  · exact swept
  · next later _ found =>
      exact swept.pushed empty (.checks ⟨_, List.mem_of_find?_eq_some found, rfl⟩)

theorem Swept.require (swept : s.Swept) (condition : Bool) : (s.require condition).Swept :=
  swept.of_same (SameFrame.refl.required _) rfl rfl (swept.sweep.congr rfl)

/-- The base loop takes a task off its stack. -/
theorem Swept.proceedBase (placed : s.Placed) (swept : s.Swept) {nowMs : Int}
    {outcome : SocketOutcome} {task : LoopTask} {work : Workers ServerLoop LoopTask}
    (popped : s.work.pop .base = some (task, work)) :
    ({ s with work := work }.run .base nowMs outcome task).Swept := by
  have fits := placed.fits .base task (Workers.mem_pop popped).1
  have left := placed.pop popped
  obtain ⟨later, stack, is⟩ := Workers.pop_eq_some popped
  have base : work .base = ⟨later, (s.work .base).queue⟩ := by
    rw [is, Function.update_self]
  have sweep := swept.sweep
  rw [stack] at sweep
  have alone : later = [] := by
    cases sweep <;> rfl
  subst alone
  have empty : (work .base).stack = [] := by
    rw [base]
  have bare : Swept { s with work := work } := by
    have queue : (work .base).queue = (s.work .base).queue := by
      rw [base]
    refine swept.of_same (SameFrame.refl.working work) rfl queue ?_
    change Sweep _ (work .base).stack
    rw [empty]
    exact .done
  refine Swept.require ?_ _
  cases sweep with
  | removes c => exact bare.removeConnectionInLoop empty (fits.owner c _ rfl)
  | checks listed => exact bare.checkIdleTimeout left empty listed nowMs
  | advances listed => exact bare.nextIdle empty listed

theorem Swept.not_running (swept : s.Swept) {work : Workers ServerLoop LoopTask}
    (popped : s.work.pop loop = some (.running, work)) : loop ≠ .base := by
  rintro rfl
  obtain ⟨rest, stack, _⟩ := Workers.pop_eq_some popped
  have sweep := swept.sweep
  rw [stack] at sweep
  cases sweep

theorem Swept.pop (swept : s.Swept) (elsewhere : loop ≠ .base) {task : LoopTask}
    {work : Workers ServerLoop LoopTask} (popped : s.work.pop loop = some (task, work)) :
    Swept { s with work := work } := by
  obtain ⟨rest, stack, is⟩ := Workers.pop_eq_some popped
  refine swept.working ?_
  rw [is, Function.update_of_ne elsewhere.symm]

theorem Swept.step (sound : s.Sound) (swept : s.Swept) (taken : s.step event = some next) :
    next.Swept := by
  have placed := sound.placed
  have elsewhere := swept.elsewhere
  have called : ∀ {c}, event.Calls c → next.Swept := by
    intro c calls
    obtain ⟨made, new, acts, _⟩ := placed.acts_call calls taken
    refine swept.of_acts (elsewhere c made) (sameFrame_step ?_ taken) acts
    rintro sockfd nowMs rfl
    exact calls.elim
  cases steps_of_step taken with
  | accept few polls => exact swept.newConnection placed few polls _ _
  | @epollWait loop active polled idle =>
      by_cases base : loop = .base
      · have none : active = [] := by
          cases active with
          | nil => rfl
          | cons entry rest =>
              obtain ⟨made, here, _⟩ := polled entry (List.mem_cons_self ..)
              exact absurd (here.trans base) (elsewhere _ made)
        subst base none
        exact swept.working (Workers.push_self _)
      · exact swept.working (Workers.push_of_ne (Ne.symm base) _)
  | @start loop work started =>
      obtain ⟨task, rest, stack, queue, rfl⟩ := Workers.start_eq_some started
      by_cases base : loop = .base
      · subst base
        have removals := swept.queue
        rw [queue] at removals
        obtain ⟨⟨c, rfl⟩, later⟩ := List.forall_mem_cons.mp removals
        refine ⟨swept.threads, swept.elsewhere, ?_, ?_, swept.kept⟩
        · change Sweep _ (Function.update s.work _ _ _).stack
          rw [Function.update_self]
          exact .removes c
        · change ∀ task ∈ (Function.update s.work _ _ _).queue, _
          rw [Function.update_self]
          exact later
      · exact swept.working (Function.update_of_ne (Ne.symm base) _ _)
  | @proceed loop nowMs outcome task work popped =>
      by_cases base : loop = .base
      · subst base
        exact swept.proceedBase placed popped
      · obtain ⟨new, acts⟩ := sound.acts popped nowMs outcome
        have same := (@does_perform { s with work := work } loop nowMs outcome task).sameFrame
        exact (swept.pop base popped).of_acts base (same.required _) acts
  | callbackReturns popped => exact swept.pop (swept.not_running popped) popped
  | callbackThrows popped =>
      have base := swept.not_running popped
      exact (swept.pop base popped).working (Function.update_of_ne base.symm _ _)
  | send | shutdown | forceClose => exact called rfl
  | shutdownReads =>
      exact swept.of_same ⟨rfl, rfl, rfl, fun _ => rfl⟩ rfl rfl (swept.sweep.congr rfl)
  | @shutdownStores c late =>
      have fewer : (s.setShutdowns (s.shutdowns.erase c)).Swept :=
        swept.of_same ⟨rfl, rfl, rfl, fun _ => rfl⟩ rfl rfl (swept.sweep.congr rfl)
      refine fewer.of_acts (elsewhere c (placed.late c late)) (.queued (.modified .refl ?_) _)
        (acts_storeDisconnecting placed late)
      exact fun _ => rfl
  | checkNothing => exact swept
  | @checkIdle entry idle first =>
      exact swept.pushed idle (.checks ⟨entry, List.mem_of_head? first, rfl⟩)

theorem sound_swept_of_run (short : name.length ≤ 15) (threads : 0 < numThreads)
    (reached : run? TcpServer.step
      (started name numThreads connectionCallback idleTimeoutSeconds) events = some s) :
    s.Sound ∧ s.Swept := by
  have pos : 0 < numThreads.toNat := by omega
  have start : (started name numThreads connectionCallback idleTimeoutSeconds).Swept :=
    ⟨pos, fun _ made => absurd made.1 (Nat.not_le_of_lt made.2), .done, List.forall_mem_nil _, rfl⟩
  have kept : ∀ state event next, Sound state ∧ Swept state →
      TcpServer.step state event = some next → Sound next ∧ Swept next :=
    fun _ _ _ both taken => ⟨both.1.step taken, both.2.step both.1 taken⟩
  exact run?_invariant kept ⟨sound_started short, start⟩ reached

/-- The idle check of a server with threads never uses an iterator whose entry has been
erased, however its walks interleave with the connections that close. -/
theorem iterator_kept_with_threads (short : name.length ≤ 15) (threads : 0 < numThreads)
    (reached : run? TcpServer.step
      (started name numThreads connectionCallback idleTimeoutSeconds) events = some s) :
    s.iteratorLost = false :=
  (sound_swept_of_run short threads reached).2.kept

/-- A connection is accepted by a server with a thread, and an idle check closes it. -/
def checkAside : List Event :=
  [.accept 7 0, .start (.io 0), .proceed (.io 0) 0 .done, .callbackReturns (.io 0), .checkIdle,
    .proceed .base 2000 .done, .proceed .base 2000 .done]

def checkedAside : TcpServer :=
  (run? TcpServer.step (started ['s'] 1 true 1) checkAside).getD (started [] 0 true 0)

theorem checkAside_reaches :
    run? TcpServer.step (started ['s'] 1 true 1) checkAside = some checkedAside :=
  run?_eq_some_getD (by decide)

theorem iterator_kept_with_threads_checkAside :
    (checkedAside.conns 1).state = .disconnecting ∧ checkedAside.iteratorLost = false :=
  ⟨by decide, iterator_kept_with_threads (by decide) (by decide) checkAside_reaches⟩

end Swept

/-! ## The walk over the table without threads -/

section Walk

variable {s t next : TcpServer} {c : ConnId} {entry : List Char} {stack : List LoopTask}
variable {event : Event} {task : LoopTask} {work : Workers ServerLoop LoopTask}

/-- What happens outside of the functions of the base loop: frames only come on top of its
stack, and while one of its functions runs, not even that. -/
structure Besides (s t : TcpServer) : Prop where
  lost : s.iteratorLost = true → t.iteratorLost = true
  stack : ∃ new, (t.work .base).stack = new ++ (s.work .base).stack
  busy : s.callable (some .base) = false → s.polls .base = false →
    (t.work .base).stack = (s.work .base).stack ∧
    (∀ entry ∈ t.connections.entries, entry ∈ s.connections.entries) ∧
    ∀ c, (s.conns c).state = .disconnecting → (t.conns c).state = .disconnecting

/-- The base loop itself has nothing to do. -/
theorem Besides.of_empty (empty : (s.work .base).stack = [])
    (lost : t.iteratorLost = s.iteratorLost) : Besides s t where
  lost is := lost.trans is
  stack := ⟨_, (List.append_nil _).symm.trans (congrArg _ empty.symm)⟩
  busy idle := by
    simp [callable, empty] at idle

theorem Besides.working (base : work .base = s.work .base) : Besides s { s with work := work } where
  lost := id
  stack := ⟨[], congrArg Worker.stack base⟩
  busy _ _ := ⟨congrArg Worker.stack base, fun _ => id, fun _ => id⟩

/-- A function that is called on the base loop, or on no loop. -/
theorem Acts.besides {new : List LoopTask} (acts : Acts .base new s t)
    (called : new ≠ [] → s.callable (some .base) = true)
    (states : s.callable (some .base) = false →
      ∀ c, (s.conns c).state = .disconnecting → (t.conns c).state = .disconnecting) :
    Besides s t where
  lost := acts.lost
  stack := ⟨new, acts.stack⟩
  busy idle _ := by
    have none : new = [] := by
      by_contra some_more
      exact Bool.noConfusion (idle.symm.trans (called some_more))
    refine ⟨?_, acts.table, states idle⟩
    rw [acts.stack, none, List.nil_append]

theorem Fits.base_of_alone {loop : ServerLoop} (fits : s.Fits loop task)
    (alone : s.threadPool.loops = 0) : loop = .base := by
  have member := fits.member
  rw [loops, alone] at member
  exact List.mem_singleton.mp member

theorem Placed.home_of_alone (placed : s.Placed) (alone : s.threadPool.loops = 0)
    (made : s.Made c) : (s.conns c).loop = .base := by
  have member := placed.homes c made
  rw [loops, alone] at member
  exact List.mem_singleton.mp member

theorem besides_newConnection (placed : s.Placed) (alone : s.threadPool.loops = 0)
    (few : s.nextConnId < 2 ^ 31 - 1) (polls : s.polls .base = true) (sockfd : Nat)
    (nowMs : Int) : Besides s (s.newConnection sockfd nowMs) := by
  obtain ⟨new, acts, _⟩ := acts_newConnection placed few sockfd nowMs
  have base : s.threadPool.getNextLoop.1 = .base := by
    rw [EventLoopThreadPool.getNextLoop, if_pos alone]
  rw [base] at acts
  exact ⟨acts.lost, ⟨new, acts.stack⟩, fun _ idle => Bool.noConfusion (idle.symm.trans polls)⟩

/-- A connection that is being closed stays so if the user calls a function of a connection. -/
theorem disconnecting_of_call (calls : event.Calls c) (taken : s.step event = some next)
    (busy : s.callable (some (s.conns c).loop) = false) {d : ConnId}
    (disconnecting : (s.conns d).state = .disconnecting) :
    (next.conns d).state = .disconnecting := by
  cases steps_of_step taken with
  | @send current c outcome made callable =>
      cases calls
      have elsewhere : current ≠ some (s.conns c).loop := by
        rintro rfl
        exact Bool.noConfusion (busy.symm.trans callable)
      rw [TcpServer.send, if_neg elsewhere]
      split
      · exact disconnecting
      · exact disconnecting
  | shutdown made callable =>
      cases calls
      exact Bool.noConfusion (busy.symm.trans callable)
  | @forceClose current c made callable =>
      unfold TcpServer.forceClose
      split
      · next connected =>
          have differs : d ≠ c := by
            rintro rfl
            cases connected.symm.trans disconnecting
          change (Function.update s.conns c _ d).state = _
          rw [Function.update_of_ne differs]
          exact disconnecting
      · exact disconnecting
  | _ => exact calls.elim

theorem besides_call (placed : s.Placed) (alone : s.threadPool.loops = 0) (calls : event.Calls c)
    (taken : s.step event = some next) : Besides s next := by
  obtain ⟨made, new, acts, called⟩ := placed.acts_call calls taken
  have kept := disconnecting_of_call calls taken
  rw [placed.home_of_alone alone made] at acts called kept
  exact acts.besides called fun busy _ => kept busy

theorem besides_storeDisconnecting (placed : s.Placed) (late : c ∈ s.shutdowns) :
    Besides s (s.storeDisconnecting c) := by
  have acts := @acts_storeDisconnecting s c .base placed late
  have stack : ((s.storeDisconnecting c).work .base).stack = (s.work .base).stack := acts.stack
  refine ⟨acts.lost, ⟨[], stack⟩, fun _ _ => ⟨stack, acts.table, ?_⟩⟩
  intro d disconnecting
  change (Function.update s.conns c _ d).state = _
  by_cases same : d = c
  · subst same
    rw [Function.update_self]
  · rw [Function.update_of_ne same]
    exact disconnecting

theorem besides_step (placed : s.Placed) (alone : s.threadPool.loops = 0)
    (proceeds : ∀ nowMs outcome, event ≠ .proceed .base nowMs outcome)
    (returns : event ≠ .callbackReturns .base) (throws : event ≠ .callbackThrows .base)
    (taken : s.step event = some next) : Besides s next := by
  have called : ∀ {c}, event.Calls c → Besides s next :=
    fun calls => besides_call placed alone calls taken
  cases steps_of_step taken with
  | accept few polls => exact besides_newConnection placed alone few polls _ _
  | @epollWait loop active polled idle =>
      by_cases base : loop = .base
      · subst base
        exact .of_empty idle rfl
      · exact .working (Workers.push_of_ne (Ne.symm base) _)
  | @start loop work started =>
      obtain ⟨first, rest, empty, _, rfl⟩ := Workers.start_eq_some started
      by_cases base : loop = .base
      · subst base
        exact .of_empty empty rfl
      · exact .working (Function.update_of_ne (Ne.symm base) _ _)
  | @proceed loop nowMs outcome task work popped =>
      obtain rfl := (placed.fits loop _ (Workers.mem_pop popped).1).base_of_alone alone
      exact absurd rfl (proceeds nowMs outcome)
  | @callbackReturns loop work popped =>
      obtain rfl := (placed.fits loop _ (Workers.mem_pop popped).1).base_of_alone alone
      exact absurd rfl returns
  | @callbackThrows loop work popped =>
      obtain rfl := (placed.fits loop _ (Workers.mem_pop popped).1).base_of_alone alone
      exact absurd rfl throws
  | send | shutdown | forceClose => exact called rfl
  | shutdownReads => exact ⟨id, ⟨[], rfl⟩, fun _ _ => ⟨rfl, fun _ => id, fun _ => id⟩⟩
  | shutdownStores late => exact besides_storeDisconnecting placed late
  | checkNothing => exact .working rfl
  | checkIdle idle _ => exact .of_empty idle rfl

/-- How far the base loop is with the connection that a walk is closing, with its iterator
at the entry of the connection.  Before the close callback the connection callback of the
user runs, in which the base loop may do anything. -/
inductive ClosesInWalk (c : ConnId) (entry : List Char) (rest : List LoopTask)
    (s : TcpServer) : Prop
  | closes (stack : (s.work .base).stack = .handleClose c :: .nextIdle entry :: rest)
      (state : (s.conns c).state = .disconnecting)
  | asks (front : List LoopTask)
      (stack : (s.work .base).stack = front ++ .closeCallback c :: .nextIdle entry :: rest)
  | removes (stack : (s.work .base).stack = .removeConnectionInLoop c :: .nextIdle entry :: rest)
  | advances (stack : (s.work .base).stack = .nextIdle entry :: rest) (erased : ¬ s.Listed entry)
  | lost (lost : s.iteratorLost = true)

namespace ClosesInWalk

theorem besides (closes : ClosesInWalk c entry stack s) (besides : Besides s t) :
    ClosesInWalk c entry stack t := by
  cases closes with
  | closes top state =>
      obtain ⟨same, _, states⟩ := besides.busy (by simp [callable, top]) (by simp [polls, top])
      exact .closes (same.trans top) (states c state)
  | asks front top =>
      obtain ⟨new, more⟩ := besides.stack
      refine .asks (new ++ front) ?_
      rw [more, top, List.append_assoc]
  | removes top =>
      obtain ⟨same, _, _⟩ := besides.busy (by simp [callable, top]) (by simp [polls, top])
      exact .removes (same.trans top)
  | advances top erased =>
      obtain ⟨same, table, _⟩ := besides.busy (by simp [callable, top]) (by simp [polls, top])
      refine .advances (same.trans top) ?_
      rintro ⟨listed, member, is⟩
      exact erased ⟨listed, table listed member, is⟩
  | lost is => exact .lost (besides.lost is)

/-- The base loop takes a frame off its stack. -/
theorem proceed (sound : s.Sound) (alone : s.threadPool.loops = 0) (made : s.Made c)
    (key : entry = connName s.name c) (closes : ClosesInWalk c entry stack s)
    (popped : s.work.pop .base = some (task, work)) (nowMs : Int) (outcome : SocketOutcome) :
    ClosesInWalk c entry stack ({ s with work := work }.run .base nowMs outcome task) := by
  have home := sound.placed.home_of_alone alone made
  obtain ⟨new, acts⟩ := sound.acts popped nowMs outcome
  obtain ⟨later, top, is⟩ := Workers.pop_eq_some popped
  have left : (work .base).stack = later := by
    rw [is, Function.update_self]
  cases closes with
  | closes held state =>
      obtain ⟨rfl, rfl⟩ := List.cons.inj (top.symm.trans held)
      refine .asks s.callbackFrames ?_
      simp [run, perform, handleClose, require, push, modify, callbackFrames, state, home, left]
  | asks front held =>
      rw [top] at held
      cases front with
      | nil =>
          obtain ⟨rfl, rfl⟩ := List.cons.inj held
          refine .removes ?_
          simp [run, perform, closeCallback, require, runInLoop, Workers.give, left]
      | cons first front =>
          obtain ⟨rfl, rfl⟩ := List.cons.inj held
          refine .asks (new ++ front) ?_
          rw [acts.stack, List.append_assoc]
          exact congrArg (new ++ ·) left
  | removes held =>
      obtain ⟨rfl, rfl⟩ := List.cons.inj (top.symm.trans held)
      by_cases listed : Listed { s with work := work } (connName s.name c)
      · refine .advances ?_ ?_
        · simp [run, perform, removeConnectionInLoop, require, listed, eraseConnection,
            queueInLoop, home, left]
        · rintro ⟨found, member, same⟩
          simp only [run, perform, removeConnectionInLoop, require, if_pos listed] at member
          exact (SortedMap.mem_erase.mp member).2 (same.trans key)
      · have stays : TcpServer.removeConnectionInLoop { s with work := work } c =
            { s with work := work } := if_neg listed
        refine .advances ?_ ?_
        · rw [run, perform, stays]
          exact left
        · rw [run, perform, stays, key]
          exact listed
  | advances held erased =>
      obtain ⟨rfl, rfl⟩ := List.cons.inj (top.symm.trans held)
      have same : ¬ Listed { s with work := work } entry := erased
      refine .lost ?_
      simp [run, perform, nextIdle, require, same]
  | lost is => exact .lost (acts.lost is)

theorem callbackReturns (closes : ClosesInWalk c entry stack s)
    (popped : s.work.pop .base = some (.running, work)) :
    ClosesInWalk c entry stack { s with work := work } := by
  obtain ⟨later, top, rfl⟩ := Workers.pop_eq_some popped
  cases closes with
  | closes held | removes held | advances held => cases top.symm.trans held
  | asks front held =>
      rw [top] at held
      cases front with
      | nil => cases held
      | cons first front =>
          refine .asks front (Eq.trans ?_ (List.cons.inj held).2)
          change (Function.update s.work _ _ _).stack = later
          rw [Function.update_self]
  | lost is => exact .lost is

/-- An exception that does not skip the close callback. -/
theorem callbackThrows (closes : ClosesInWalk c entry stack s)
    (spares : .closeCallback c ∉ s.unwound .base)
    (popped : s.work.pop .base = some (.running, work)) :
    ClosesInWalk c entry stack (unwind { s with work := work } .base) := by
  obtain ⟨later, top, rfl⟩ := Workers.pop_eq_some popped
  cases closes with
  | closes held | removes held | advances held => cases top.symm.trans held
  | asks front held =>
      rw [unwound, top, List.tail_cons] at spares
      rw [top] at held
      cases front with
      | nil => cases held
      | cons first front =>
          obtain ⟨_, rfl⟩ := List.cons.inj held
          obtain ⟨left, dropped⟩ := Workers.dropWhile_append_of_not_mem rfl spares
          refine .asks left ?_
          rw [← dropped]
          simp [unwind, Workers.unwind]
  | lost is => exact .lost is

end ClosesInWalk

theorem find?_of_mem (listed : (name, c) ∈ s.connections.entries) :
    s.connections.entries.find? (fun entry => decide (entry.1 = name)) = some (name, c) := by
  cases found : s.connections.entries.find? fun entry => decide (entry.1 = name) with
  | none => exact absurd (List.find?_eq_none.mp found _ listed) (by simp)
  | some entry =>
      have key := List.find?_some found
      rw [SortedMap.eq_of_key_eq (List.mem_of_find?_eq_some found) listed (of_decide_eq_true key)]

/-- What a step never changes. -/
theorem frame_step (taken : s.step event = some next) :
    next.name = s.name ∧ next.threadPool.loops = s.threadPool.loops ∧
      ∀ c, s.Made c → next.Made c := by
  rcases newConnection_or_sameFrame taken with ⟨sockfd, nowMs, rfl⟩ | same
  · refine ⟨rfl, ?_, fun c made => ⟨made.1, Nat.lt_succ_of_lt made.2⟩⟩
    change s.threadPool.getNextLoop.2.loops = _
    unfold EventLoopThreadPool.getNextLoop
    split <;> rfl
  · exact ⟨same.name, congrArg _ same.threadPool, fun c => same.made.mpr⟩

theorem loops_of_run (reached : run? TcpServer.step
      (started name numThreads connectionCallback idleTimeoutSeconds) events = some s) :
    s.threadPool.loops = numThreads.toNat := by
  have kept : ∀ state event next, state.threadPool.loops = numThreads.toNat →
      TcpServer.step state event = some next → next.threadPool.loops = numThreads.toNat :=
    fun _ _ _ loops taken => (frame_step taken).2.1.trans loops
  exact run?_invariant kept rfl reached

/-- A walk that closes a connection on its own loop: the server has no threads. -/
structure Undercut (c : ConnId) (entry : List Char) (rest : List LoopTask) (s : TcpServer) :
    Prop extends Sound s where
  alone : s.threadPool.loops = 0
  own : s.Made c
  key : entry = connName s.name c
  closes : ClosesInWalk c entry rest s

theorem Undercut.step (cut : Undercut c entry stack s) (spares : Spares c s event)
    (taken : s.step event = some next) : Undercut c entry stack next := by
  obtain ⟨name, loops, made⟩ := frame_step taken
  refine ⟨cut.toSound.step taken, loops.trans cut.alone, made c cut.own, name ▸ cut.key, ?_⟩
  by_cases proceeds : ∃ nowMs outcome, event = .proceed .base nowMs outcome
  · obtain ⟨nowMs, outcome, rfl⟩ := proceeds
    cases steps_of_step taken with
    | proceed popped =>
        exact cut.closes.proceed cut.toSound cut.alone cut.own cut.key popped nowMs outcome
  by_cases returns : event = .callbackReturns .base
  · subst returns
    cases steps_of_step taken with
    | callbackReturns popped => exact cut.closes.callbackReturns popped
  by_cases throws : event = .callbackThrows .base
  · subst throws
    cases steps_of_step taken with
    | callbackThrows popped => exact cut.closes.callbackThrows (spares .base rfl) popped
  refine cut.closes.besides (besides_step cut.placed cut.alone ?_ returns throws taken)
  exact fun nowMs outcome is => proceeds ⟨nowMs, outcome, is⟩

/-- The iterator stays where it is until it is lost. -/
theorem Undercut.suffix_or_lost (cut : Undercut c entry stack s) :
    .nextIdle entry :: stack <:+ (s.work .base).stack ∨ s.iteratorLost = true := by
  cases cut.closes with
  | closes top | removes top => exact Or.inl ⟨[_], top.symm⟩
  | asks front top =>
      refine Or.inl ⟨front ++ [.closeCallback c], ?_⟩
      rw [top, List.append_assoc]
      rfl
  | advances top => exact Or.inl ⟨[], top.symm⟩
  | lost is => exact Or.inr is

/-- The walk closes a connection in its loop, which is the loop of the walk. -/
theorem Sound.undercut (sound : s.Sound) (alone : s.threadPool.loops = 0)
    (walking : (s.work .base).stack = .checkIdleTimeout entry :: stack)
    (listed : (entry, c) ∈ s.connections.entries) (connected : (s.conns c).state = .connected)
    {nowMs : Int}
    (expired : s.idleTimeoutSeconds ≤ (nowMs - (s.conns c).lastActiveTimeMs).tdiv 1000)
    {outcome : SocketOutcome} (taken : s.step (.proceed .base nowMs outcome) = some next) :
    Undercut c entry stack next := by
  obtain ⟨own, key⟩ : s.Made c ∧ entry = connName s.name c := sound.placed.table _ listed
  obtain ⟨name, loops, made⟩ := frame_step taken
  have home := sound.placed.home_of_alone alone own
  have found := find?_of_mem listed
  refine ⟨sound.step taken, loops.trans alone, made c own, name ▸ key, ?_⟩
  rw [step_proceed walking LoopTask.noConfusion] at taken
  cases taken
  refine .closes ?_ ?_
  all_goals simp [run, perform, checkIdleTimeout, forceClose, require, push, runInLoop, modify,
    Workers.give, found, expired, connected, home]

/--
In a server without threads a walk that finds a connection whose timeout is over never gets
past the entry of the connection.  Whatever the threads and the callbacks do, the iterator
stays at the entry until it has been lost, unless an exception skips the close callback of
the connection; and if nothing comes in and the callbacks return, it is lost.
-/
theorem iterator_lost_without_threads (short : name.length ≤ 15) (alone : numThreads ≤ 0)
    (reached : run? TcpServer.step
      (started name numThreads connectionCallback idleTimeoutSeconds) events = some s)
    (walking : (s.work .base).stack = .checkIdleTimeout entry :: stack)
    (listed : (entry, c) ∈ s.connections.entries) (connected : (s.conns c).state = .connected)
    {nowMs : Int}
    (expired : s.idleTimeoutSeconds ≤ (nowMs - (s.conns c).lastActiveTimeMs).tdiv 1000)
    (outcome : SocketOutcome) :
    (∀ more final,
      Along TcpServer.step (Spares c) s (.proceed .base nowMs outcome :: more) →
      run? TcpServer.step s (.proceed .base nowMs outcome :: more) = some final →
        .nextIdle entry :: stack <:+ (final.work .base).stack ∨ final.iteratorLost = true) ∧
    ∃ more final, (∀ event ∈ more, event.Works ∧ ∀ loop, event ≠ .callbackThrows loop) ∧
      run? TcpServer.step s (.proceed .base nowMs outcome :: more) = some final ∧
        final.iteratorLost = true := by
  have sound := sound_of_run short reached
  have loops : s.threadPool.loops = 0 := by
    rw [loops_of_run reached]
    omega
  have goes : ∀ {more final next}, s.step (.proceed .base nowMs outcome) = some next →
      Along TcpServer.step (Spares c) next more → run? TcpServer.step next more = some final →
        .nextIdle entry :: stack <:+ (final.work .base).stack ∨ final.iteratorLost = true := by
    intro more final next first spared rest
    have cut := sound.undercut loops walking listed connected expired first
    exact (run?_invariant_along (fun _ _ _ cut spares taken => Undercut.step cut spares taken) cut
      spared rest).suffix_or_lost
  refine ⟨?_, ?_⟩
  · intro more final spared run
    obtain ⟨next, first, rest⟩ := run?_cons_eq_some.mp run
    exact goes first (spared.2 next first) rest
  · have first := step_proceed walking LoopTask.noConfusion nowMs outcome
    obtain ⟨more, final, works, rest, idle⟩ := (sound.step first).exists_drain
    refine ⟨more, final, works, run?_cons_eq_some.mpr ⟨_, first, rest⟩, ?_⟩
    have spared := spares_of_forall (fun event member => (works event member).2) c
    refine (goes first (spared _) rest).resolve_left fun left => ?_
    have empty := idle .base final.base_mem_loops
    rw [Worker.tasks] at empty
    rw [(List.append_eq_nil_iff.mp empty).1] at left
    cases List.suffix_nil.mp left

/-- A connection is accepted and the idle check begins, in a server with no threads. -/
def checkAlone : List Event :=
  [.accept 7 0, .proceed .base 0 .done, .callbackReturns .base, .checkIdle]

def checkedAlone : TcpServer :=
  (run? TcpServer.step (started ['s'] 0 true 1) checkAlone).getD (started [] 0 true 0)

theorem checkAlone_reaches :
    run? TcpServer.step (started ['s'] 0 true 1) checkAlone = some checkedAlone :=
  run?_eq_some_getD (by decide)

theorem iterator_lost_without_threads_checkAlone :
    ∃ more final, (∀ event ∈ more, event.Works ∧ ∀ loop, event ≠ .callbackThrows loop) ∧
      run? TcpServer.step checkedAlone (.proceed .base 2000 .done :: more) = some final ∧
        final.iteratorLost = true :=
  (iterator_lost_without_threads (by decide) (by decide) checkAlone_reaches
    (show (checkedAlone.work .base).stack = [.checkIdleTimeout (connName ['s'] 1)] by decide)
    (show (connName ['s'] 1, 1) ∈ checkedAlone.connections.entries by decide) (by decide)
    (by decide) .done).2

end Walk

end TcpServer

end RpcFramework
