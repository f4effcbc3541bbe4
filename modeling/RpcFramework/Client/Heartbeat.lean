import RpcFramework.Client.Orphans
import RpcFramework.Client.Sending

/-!
# The heartbeat of the client

`startHeartbeat` arms a periodic timer (of at least a millisecond) in a loop of the client
and remembers the loop; `stopHeartbeat` and the destructor cancel the timer through that
pointer.  Nothing clears the pointer when the loop goes.  A pass of the loop collects the
timers that are due under the lock and runs them behind it, so that a timer can still run
when `cancelTimer` has returned.

The destructor of a `TcpClient` queues its connector in its loop, unless it is on the
thread of the loop.  Where a connection cannot be made the loop is stopped first and the
`TcpClient` goes last; a second `connect` in the direct mode replaces the loop thread before
the `TcpClient`; and the destructor of the client keeps a copy of its `TcpClient` over the
`disconnect` that stops the loop.

The timer keeps the `TcpClient` that the client had when it was armed.  As long as the
loop of the timer runs, this is the `TcpClient` that the client has.  A timer that was
cancelled stays in the queue of its loop until a pass drops it; with a loop that is stopped
before, the `TcpClient` goes in the destructor of the loop.
-/

namespace RpcFramework.Client

open Codec StepRun

/-! ## Loops that go and loops that stay -/

/-- No loop was stopped, but new ones may have been started. -/
structure EventLoops.Extends (next l : EventLoops) : Prop where
  started : l.started ≤ next.started
  running : ∀ id < l.started, (id ∈ next.running ↔ id ∈ l.running)

/-- The loops that were started before are all stopped. -/
structure EventLoops.Replaces (next l : EventLoops) : Prop where
  started : l.started ≤ next.started
  stopped : ∀ id < l.started, id ∉ next.running

namespace EventLoops

variable {l next final : EventLoops}

theorem Extends.of_eq (started : next.started = l.started) (running : next.running = l.running) :
    next.Extends l :=
  ⟨started.ge, fun id _ => by rw [running]⟩

theorem Extends.refl (l : EventLoops) : l.Extends l := .of_eq rfl rfl

theorem Extends.trans (later : final.Extends next) (earlier : next.Extends l) :
    final.Extends l where
  started := earlier.started.trans later.started
  running id old :=
    (later.running id (old.trans_le earlier.started)).trans (earlier.running id old)

theorem extends_startLoop (l : EventLoops) : l.startLoop.Extends l where
  started := Nat.le_succ _
  running id old := by
    rw [startLoop, Finset.mem_insert]
    exact or_iff_right (Nat.ne_of_lt old)

theorem extends_startLoop_stop (l : EventLoops) : (l.startLoop.stop l.started).Extends l where
  started := Nat.le_succ _
  running id _ := by
    have same : (l.startLoop.stop l.started).running = l.running :=
      Finset.erase_insert started_not_running
    rw [same]

theorem started_stopAll (ids : List LoopId) : (l.stopAll ids).started = l.started := by
  induction ids generalizing l with
  | nil => rfl
  | cons id ids ih => exact ih (l := l.stop id)

end EventLoops

namespace LinkedClient

variable {s next : LinkedClient} {event : Event}

/-- The step stops the loops that the client has. -/
def StopsLoops (s : LinkedClient) : Event → Prop
  | .disconnect => s.ownsLoopThread = true
  | .connect _ _ => s.client.invalid = false ∧ s.ownsLoopThread = true ∧ s.usesRegistry = false
  | _ => False

/-- A `TcpClient` is destroyed when its loop has been stopped: that of an attempt that
failed, or the one that a direct `connect` replaces. -/
def destroysLate (s : LinkedClient) : Event → Bool
  | .connect nodes dial =>
      !s.client.invalid && s.ownsLoopThread &&
        if s.usesRegistry then nodes.any fun node => node.valid && node.dial != .up
        else s.validHost && (dial != .up || s.tcpClient.isSome)
  | _ => false

theorem extends_connectNode (s : LinkedClient) (node : Node) :
    (s.connectNode node).loops.Extends s.loops := by
  unfold connectNode
  dsimp only
  split
  · exact s.loops.extends_startLoop
  · exact s.loops.extends_startLoop_stop

theorem extends_connectViaRegistry (s : LinkedClient) (nodes : List Node) :
    (s.connectViaRegistry nodes).1.loops.Extends s.loops := by
  have linked : (nodes.foldl connectNode s).loops.Extends s.loops := by
    induction nodes generalizing s with
    | nil => exact .refl _
    | cons node nodes ih => exact (ih (s.connectNode node)).trans (s.extends_connectNode node)
  unfold connectViaRegistry
  dsimp only
  split
  · exact linked
  · exact linked

theorem extends_connect {nodes : List Node} {dial : Dial}
    (keeps : ¬ s.StopsLoops (.connect nodes dial)) :
    (s.connect nodes dial).1.loops.Extends s.loops := by
  unfold LinkedClient.connect
  split
  · exact .refl _
  · next valid =>
      split
      · exact .refl _
      · next owns =>
          split
          · exact s.extends_connectViaRegistry nodes
          · next direct =>
              refine absurd ⟨Bool.eq_false_iff.mpr valid, ?_, Bool.eq_false_iff.mpr direct⟩ keeps
              simpa using owns

/-- A step that does not stop the loops of the client leaves each of them as it is. -/
theorem Wired.extends_step (wired : s.Wired) (keeps : ¬ s.StopsLoops event)
    (taken : s.step event = some next) : next.loops.Extends s.loops := by
  cases relinks_of_step taken with
  | connect nodes dial => exact extends_connect keeps
  | disconnect =>
      rw [wired.loops_disconnect (Bool.eq_false_iff.mpr keeps)]
      exact .refl _
  | connection endpoint connection =>
      cases endpoint with
      | none => exact .refl _
      | some i => exact .refl _
  | kept _ _ _ started running => exact .of_eq started running

theorem started_connectDirect (s : LinkedClient) (dial : Dial) :
    s.loops.started ≤ (s.connectDirect dial).1.loops.started := by
  have grown : s.loops.started ≤ (s.loops.startLoop.stopAll s.loopThread.toList).started := by
    rw [EventLoops.started_stopAll]
    exact Nat.le_succ _
  unfold connectDirect
  dsimp only
  split
  · cases dial with
    | up | refused | timeout => exact grown
  · exact grown

theorem started_disconnect (s : LinkedClient) : s.disconnect.loops.started = s.loops.started := by
  unfold disconnect
  dsimp only
  split
  · rw [EventLoops.started_stopAll, EventLoops.started_stopAll]
  · rw [EventLoops.started_stopAll]

/-- A step that stops the loops of the client stops them all. -/
theorem Wired.replaces_step (wired : s.Wired) (stops : s.StopsLoops event)
    (taken : s.step event = some next) : next.loops.Replaces s.loops := by
  cases event with
  | connect nodes dial =>
      obtain ⟨valid, owns, direct⟩ := stops
      have connected : s.connect nodes dial = s.connectDirect dial := by
        rw [LinkedClient.connect, valid, owns, direct]
        rfl
      cases taken
      rw [connected]
      refine ⟨s.started_connectDirect dial, fun id old running => ?_⟩
      exact Nat.ne_of_lt old ((wired.connectDirect_loops direct owns dial).1 id running)
  | disconnect =>
      cases taken
      exact ⟨s.started_disconnect.ge, fun id _ => wired.running_disconnect stops id⟩
  | asyncCall _ | resume _ | packet _ _ | timer _ _ _ | connection _ _ => exact stops.elim

/-- The mode of a client is that of its constructor. -/
structure SameMode (next s : LinkedClient) : Prop where
  usesRegistry : next.usesRegistry = s.usesRegistry
  ownsLoopThread : next.ownsLoopThread = s.ownsLoopThread

theorem sameMode_step (taken : s.step event = some next) : SameMode next s := by
  cases relinks_of_step taken with
  | connect nodes dial =>
      obtain ⟨_, _, usesRegistry, ownsLoopThread⟩ := s.connect_frame nodes dial
      exact ⟨usesRegistry, ownsLoopThread⟩
  | disconnect | kept => exact ⟨rfl, rfl⟩
  | connection endpoint connection =>
      cases endpoint with
      | none => exact ⟨rfl, rfl⟩
      | some i => exact ⟨rfl, rfl⟩

/-- In the direct mode the loop thread comes and goes with a `TcpClient`. -/
def Threaded (s : LinkedClient) : Prop := s.tcpClient = none → s.loopThread = none

theorem Threaded.connect (threaded : s.Threaded) (nodes : List Node) (dial : Dial) :
    Threaded (s.connect nodes dial).1 := by
  obtain ⟨loops, new, ring, _, linked⟩ := s.connectNodes_cases nodes
  unfold LinkedClient.connect connectViaRegistry connectDirect
  rw [linked]
  split
  · exact threaded
  · split
    · exact threaded
    · split
      · dsimp only
        split
        · exact threaded
        · exact threaded
      · dsimp only
        split
        · cases dial with
          | up => exact fun absent => absurd absent (Option.some_ne_none _)
          | refused | timeout => exact fun _ => rfl
        · exact fun _ => rfl

theorem Threaded.step (threaded : s.Threaded) (wired : s.Wired) (taken : s.step event = some next) :
    next.Threaded := by
  cases relinks_of_step taken with
  | connect nodes dial => exact threaded.connect nodes dial
  | disconnect =>
      intro _
      cases owns : s.ownsLoopThread with
      | true => simp [LinkedClient.disconnect, owns]
      | false => simp [LinkedClient.disconnect, owns, (wired.borrowed owns).1]
  | connection endpoint connection =>
      cases endpoint with
      | none => exact fun absent => threaded (Option.map_eq_none_iff.mp absent)
      | some i => exact threaded
  | kept => exact threaded

theorem Constructed.threaded (constructed : s.Constructed) : s.Threaded := by
  cases constructed with
  | owning => exact fun _ => rfl
  | pooled tcpClient claimed chain circuitBreaker =>
      cases tcpClient with
      | none => exact fun _ => rfl
      | some connection =>
          cases claimed with
          | false | true => exact fun _ => rfl

/-- The loop of the first endpoint, or else `loop_`, runs. -/
theorem Wired.timeoutLoop_running (wired : s.Wired) {id : LoopId}
    (chosen : s.timeoutLoop = some id) : id ∈ s.loops.running := by
  unfold timeoutLoop at chosen
  split at chosen
  · next ep rest endpoints =>
      cases chosen
      refine wired.endpoints _ ?_
      rw [endpointLoops, endpoints]
      exact List.mem_cons_self
  · exact wired.loop id chosen

end LinkedClient

/-! ## The client with its heartbeat -/

/-- The periodic timer: its loop, and whether there was a `TcpClient` to capture. -/
structure HeartbeatTimer where
  loop : LoopId
  captured : Bool
  deriving DecidableEq

/-- `timer` is the timer that waits in the queue of its loop, `cancelled` are those that
wait there to be dropped, and `collected` are those that a pass has taken from the queue and
not run yet.  `usedLoop` and `usedClient` say that a loop that was stopped, or the client
when it was destroyed, has been used. -/
structure HeartbeatClient where
  linked : LinkedClient
  heartbeatRunning : Bool
  heartbeatLoop : Option LoopId
  timer : Option HeartbeatTimer
  cancelled : List HeartbeatTimer
  collected : List HeartbeatTimer
  sent : Nat
  destroyed : Bool
  usedLoop : Bool
  usedClient : Bool

namespace HeartbeatClient

def new (linked : LinkedClient) : HeartbeatClient where
  linked := linked
  heartbeatRunning := false
  heartbeatLoop := none
  timer := none
  cancelled := []
  collected := []
  sent := 0
  destroyed := false
  usedLoop := false
  usedClient := false

/-- The loop is the one that a call would arm its timer in. -/
def startHeartbeat (s : HeartbeatClient) : HeartbeatClient :=
  match s.linked.timeoutLoop with
  | none => s
  | some hbLoop =>
      if s.heartbeatRunning then s
      else
        { s with
          heartbeatRunning := true
          heartbeatLoop := some hbLoop
          timer := some ⟨hbLoop, s.linked.tcpClient.isSome⟩ }

/-- A timer that is cancelled is not collected any more; one that has been collected is
still run. -/
def stopHeartbeat (s : HeartbeatClient) : HeartbeatClient :=
  match s.heartbeatRunning, s.heartbeatLoop with
  | true, some id =>
      { s with
        heartbeatRunning := false
        heartbeatLoop := none
        timer := none
        cancelled := s.timer.toList ++ s.cancelled
        usedLoop := s.usedLoop || decide (id ∉ s.linked.loops.running) }
  | _, _ => { s with heartbeatRunning := false }

/-- A timer in the queue of a loop that runs holds the `TcpClient`. -/
def holdsClient (s : HeartbeatClient) : Bool :=
  (s.timer.toList ++ s.cancelled).any fun timer =>
    timer.captured && decide (timer.loop ∈ s.linked.loops.running)

/-- A `TcpClient` is destroyed when its loop has been stopped, or by the loop that goes. -/
def destroysLate (s : HeartbeatClient) : LinkedClient.Event → Bool
  | .disconnect => s.linked.ownsLoopThread && s.holdsClient
  | event => s.linked.destroysLate event

/-- The destructor, up to the calls that are pending: its copy of `tcpClient_` goes behind
the loop. -/
def destroy (s : HeartbeatClient) : HeartbeatClient :=
  let stopped := s.stopHeartbeat
  { stopped with
    linked := s.linked.disconnect
    destroyed := true
    usedLoop := stopped.usedLoop || stopped.destroysLate .disconnect ||
      (s.linked.ownsLoopThread && s.linked.tcpClient.isSome) }

/-- The body of the timer sends a heartbeat. -/
def beats (s : HeartbeatClient) (timer : HeartbeatTimer) : Bool :=
  s.linked.connected && timer.captured &&
    (s.linked.tcpClient.any fun link => link.connection.isSome)

/-- The body of the timer; it reads `connected_` in any case. -/
def beat (s : HeartbeatClient) (timer : HeartbeatTimer) : HeartbeatClient :=
  if s.destroyed then { s with collected := s.collected.erase timer, usedClient := true }
  else
    { s with
      collected := s.collected.erase timer
      sent := if s.beats timer then s.sent + 1 else s.sent }

inductive Event where
  | client (event : LinkedClient.Event)
  | startHeartbeat
  | stopHeartbeat
  | collect
  | drop (timer : HeartbeatTimer)
  | beat (timer : HeartbeatTimer)
  | destroy

/-- A timer is collected, dropped and run by the thread of its loop, one pass after the
other; nobody calls a client that was destroyed. -/
def step (s : HeartbeatClient) : Event → Option HeartbeatClient
  | .client event =>
      if s.destroyed then none
      else
        (s.linked.step event).map fun linked =>
          { s with linked := linked, usedLoop := s.usedLoop || s.destroysLate event }
  | .startHeartbeat => if s.destroyed then none else some s.startHeartbeat
  | .stopHeartbeat => if s.destroyed then none else some s.stopHeartbeat
  | .collect =>
      match s.timer with
      | none => none
      | some timer =>
          if timer.loop ∈ s.linked.loops.running ∧ ∀ other ∈ s.collected, other.loop ≠ timer.loop
          then some { s with collected := timer :: s.collected }
          else none
  | .drop timer =>
      if timer ∈ s.cancelled ∧ timer.loop ∈ s.linked.loops.running ∧
          ∀ other ∈ s.collected, other.loop ≠ timer.loop
      then some { s with cancelled := s.cancelled.erase timer }
      else none
  | .beat timer =>
      if timer ∈ s.collected ∧ timer.loop ∈ s.linked.loops.running then some (s.beat timer)
      else none
  | .destroy => if s.destroyed then none else some s.destroy

/-! ## The invariant -/

/-- The timer waits exactly while the flag is set, and what remains of a destroyed client
that owned its threads cannot run. -/
structure Inv (s : HeartbeatClient) : Prop where
  wired : s.linked.Wired
  threaded : s.linked.Threaded
  tracked : s.heartbeatLoop.isSome = s.heartbeatRunning
  waits : s.timer.isSome = s.heartbeatRunning
  older : ∀ id, s.heartbeatLoop = some id → id < s.linked.loops.started
  ended : s.destroyed = true → s.heartbeatRunning = false
  deaf : s.linked.usesRegistry = true → ∀ timer,
    timer ∈ s.timer.toList ++ s.cancelled ∨ timer ∈ s.collected → timer.captured = false
  silent : s.linked.usesRegistry = true → s.sent = 0
  borrowed : s.linked.ownsLoopThread = false →
    ∀ timer ∈ s.collected, timer.loop ∈ s.linked.loops.running
  joined : s.destroyed = true → s.linked.ownsLoopThread = true → ∀ id, id ∉ s.linked.loops.running
  unused : s.usedClient = true → s.destroyed = true ∧ s.linked.ownsLoopThread = false

variable {s next : HeartbeatClient}

theorem inv_new {linked : LinkedClient} (constructed : linked.Constructed) : (new linked).Inv where
  wired := constructed.wired
  threaded := constructed.threaded
  tracked := rfl
  waits := rfl
  older _ impossible := absurd impossible.symm (Option.some_ne_none _)
  ended _ := rfl
  deaf _ := by simp [new]
  silent _ := rfl
  borrowed _ := List.forall_mem_nil _
  joined impossible := absurd impossible Bool.false_ne_true
  unused impossible := absurd impossible Bool.false_ne_true

/-- The loops of the client are never numbered backwards. -/
theorem started_step {linked next : LinkedClient} {event : LinkedClient.Event}
    (wired : linked.Wired) (taken : linked.step event = some next) :
    linked.loops.started ≤ next.loops.started := by
  by_cases stops : linked.StopsLoops event
  · exact (wired.replaces_step stops taken).started
  · exact (wired.extends_step stops taken).started

/-- A step of a client that borrows its loop stops nothing. -/
theorem not_stopsLoops {linked : LinkedClient} (pooled : linked.ownsLoopThread = false)
    (event : LinkedClient.Event) : ¬ linked.StopsLoops event := by
  cases event with
  | connect nodes dial => exact fun stops => absurd (pooled.symm.trans stops.2.1) Bool.false_ne_true
  | disconnect => exact fun owns => absurd (pooled.symm.trans owns) Bool.false_ne_true
  | asyncCall _ | resume _ | packet _ _ | timer _ _ _ | connection _ _ => exact False.elim

theorem Inv.client (inv : s.Inv) (alive : s.destroyed = false) {event : LinkedClient.Event}
    {linked : LinkedClient} (taken : s.linked.step event = some linked) (usedLoop : Bool) :
    Inv { s with linked := linked, usedLoop := usedLoop } := by
  obtain ⟨usesRegistry, ownsLoopThread⟩ := LinkedClient.sameMode_step taken
  have gone : s.destroyed ≠ true := Bool.eq_false_iff.mp alive
  refine ⟨inv.wired.step taken, inv.threaded.step inv.wired taken, inv.tracked, inv.waits, ?_,
    inv.ended, ?_, ?_, ?_, ?_, ?_⟩
  · exact fun id same => (inv.older id same).trans_le (started_step inv.wired taken)
  · exact fun registry => inv.deaf (usesRegistry.symm.trans registry)
  · exact fun registry => inv.silent (usesRegistry.symm.trans registry)
  · intro pooled timer member
    have pooled : s.linked.ownsLoopThread = false := ownsLoopThread.symm.trans pooled
    have running := inv.borrowed pooled timer member
    have kept := inv.wired.extends_step (not_stopsLoops pooled event) taken
    exact (kept.running _ (s.linked.loops.fresh _ running)).mpr running
  · exact fun destroyed => absurd destroyed gone
  · exact fun used => absurd (inv.unused used).1 gone

theorem Inv.startHeartbeat (inv : s.Inv) (alive : s.destroyed = false) : s.startHeartbeat.Inv := by
  have gone : s.destroyed ≠ true := Bool.eq_false_iff.mp alive
  unfold HeartbeatClient.startHeartbeat
  split
  · exact inv
  · next id chosen =>
      split
      · exact inv
      · have running := inv.wired.timeoutLoop_running chosen
        refine { inv with tracked := rfl, waits := rfl, older := ?_, ended := ?_, deaf := ?_ }
        · rintro _ ⟨⟩
          exact s.linked.loops.fresh id running
        · exact fun destroyed => absurd destroyed gone
        · intro registry timer known
          rcases known with queued | collected
          · rcases List.mem_append.mp queued with armed | cancelled
            · -- the registry mode never sets `tcpClient_`
              cases List.mem_singleton.mp armed
              rw [(inv.wired.several registry).2.2]
              rfl
            · exact inv.deaf registry timer (Or.inl (List.mem_append_right _ cancelled))
          · exact inv.deaf registry timer (Or.inr collected)

theorem Inv.stopHeartbeat_eq (inv : s.Inv) :
    s.stopHeartbeat =
      { s with
        heartbeatRunning := false
        heartbeatLoop := none
        timer := none
        cancelled := s.timer.toList ++ s.cancelled
        usedLoop := s.usedLoop ||
          s.heartbeatLoop.any fun id => decide (id ∉ s.linked.loops.running) } := by
  have tracked := inv.tracked
  have waits := inv.waits
  unfold HeartbeatClient.stopHeartbeat
  split
  · next id running here =>
      rw [here]
      rfl
  · next other =>
      -- without the flag there is no loop and no timer
      have stopped : s.heartbeatRunning = false := by
        cases running : s.heartbeatRunning with
        | false => rfl
        | true =>
            rw [running] at tracked
            obtain ⟨id, here⟩ := Option.isSome_iff_exists.mp tracked
            exact absurd here (other id running)
      rw [stopped, Option.isSome_eq_false_iff, Option.isNone_iff_eq_none] at tracked waits
      rw [tracked, waits]
      simp

theorem Inv.stopHeartbeat (inv : s.Inv) : s.stopHeartbeat.Inv := by
  rw [inv.stopHeartbeat_eq]
  refine { inv with tracked := rfl, waits := rfl, older := ?_, ended := fun _ => rfl, deaf := ?_ }
  · exact fun _ impossible => absurd impossible.symm (Option.some_ne_none _)
  · exact inv.deaf

theorem Inv.collect (inv : s.Inv) {timer : HeartbeatTimer} (waiting : s.timer = some timer)
    (running : timer.loop ∈ s.linked.loops.running) :
    Inv { s with collected := timer :: s.collected } := by
  refine { inv with deaf := ?_, borrowed := ?_ }
  · intro registry other known
    rcases known with queued | collected
    · exact inv.deaf registry other (Or.inl queued)
    · rcases List.mem_cons.mp collected with rfl | collected
      · refine inv.deaf registry _ (Or.inl (List.mem_append_left _ ?_))
        exact Option.mem_toList.mpr waiting
      · exact inv.deaf registry other (Or.inr collected)
  · exact fun pooled => List.forall_mem_cons.mpr ⟨running, inv.borrowed pooled⟩

theorem Inv.drop (inv : s.Inv) (timer : HeartbeatTimer) :
    Inv { s with cancelled := s.cancelled.erase timer } := by
  refine { inv with deaf := ?_ }
  intro registry other known
  refine inv.deaf registry other (known.imp_left fun queued => ?_)
  exact List.mem_append.mpr ((List.mem_append.mp queued).imp_right List.mem_of_mem_erase)

/-- A timer that captured no `TcpClient` sends nothing. -/
theorem not_beats {timer : HeartbeatTimer} (captured : timer.captured = false) :
    s.beats timer = false := by
  rw [beats, captured, Bool.and_false, Bool.false_and]

theorem Inv.beat (inv : s.Inv) {timer : HeartbeatTimer} (collected : timer ∈ s.collected)
    (running : timer.loop ∈ s.linked.loops.running) : (s.beat timer).Inv := by
  have fewer : ∀ other, other ∈ s.timer.toList ++ s.cancelled ∨ other ∈ s.collected.erase timer →
      other ∈ s.timer.toList ++ s.cancelled ∨ other ∈ s.collected :=
    fun other known => known.imp_right List.mem_of_mem_erase
  unfold HeartbeatClient.beat
  split
  · next destroyed =>
      refine { inv with deaf := ?_, borrowed := ?_, unused := ?_ }
      · exact fun registry other known => inv.deaf registry other (fewer other known)
      · exact fun pooled other member => inv.borrowed pooled other (List.mem_of_mem_erase member)
      · intro _
        refine ⟨destroyed, Bool.eq_false_iff.mpr fun owns => ?_⟩
        exact inv.joined destroyed owns _ running
  · refine { inv with deaf := ?_, silent := ?_, borrowed := ?_ }
    · exact fun registry other known => inv.deaf registry other (fewer other known)
    · intro registry
      have quiet := not_beats (s := s) (inv.deaf registry timer (Or.inr collected))
      simp only [quiet, Bool.false_eq_true, if_false]
      exact inv.silent registry
    · exact fun pooled other member => inv.borrowed pooled other (List.mem_of_mem_erase member)

theorem Inv.destroy (inv : s.Inv) (alive : s.destroyed = false) : s.destroy.Inv := by
  have stopped := inv.stopHeartbeat
  have same : s.stopHeartbeat.linked = s.linked := by rw [inv.stopHeartbeat_eq]
  have unharmed : s.stopHeartbeat.destroyed = false := by
    rw [inv.stopHeartbeat_eq]
    exact alive
  have taken : s.stopHeartbeat.linked.step .disconnect = some s.linked.disconnect := by
    rw [same]
    rfl
  have disconnected := stopped.client unharmed taken s.destroy.usedLoop
  refine { disconnected with ended := ?_, joined := ?_, unused := ?_ }
  · rw [HeartbeatClient.destroy, inv.stopHeartbeat_eq]
    exact fun _ => rfl
  · exact fun _ owns => inv.wired.running_disconnect owns
  · exact fun used => absurd (stopped.unused used).1 (Bool.eq_false_iff.mp unharmed)

theorem Inv.step (inv : s.Inv) {event : Event} (taken : s.step event = some next) : next.Inv := by
  cases event with
  | client event =>
      obtain ⟨alive, stepped⟩ := Option.ite_none_left_eq_some.mp taken
      obtain ⟨linked, moved, rfl⟩ := Option.map_eq_some_iff.mp stepped
      exact inv.client (Bool.eq_false_iff.mpr alive) moved _
  | startHeartbeat =>
      obtain ⟨alive, ⟨⟩⟩ := Option.ite_none_left_eq_some.mp taken
      exact inv.startHeartbeat (Bool.eq_false_iff.mpr alive)
  | stopHeartbeat =>
      obtain ⟨_, ⟨⟩⟩ := Option.ite_none_left_eq_some.mp taken
      exact inv.stopHeartbeat
  | collect =>
      rw [HeartbeatClient.step] at taken
      split at taken
      · cases taken
      · next timer waiting =>
          obtain ⟨⟨running, _⟩, ⟨⟩⟩ := Option.ite_none_right_eq_some.mp taken
          exact inv.collect waiting running
  | drop timer =>
      obtain ⟨_, ⟨⟩⟩ := Option.ite_none_right_eq_some.mp taken
      exact inv.drop timer
  | beat timer =>
      obtain ⟨⟨collected, running⟩, ⟨⟩⟩ := Option.ite_none_right_eq_some.mp taken
      exact inv.beat collected running
  | destroy =>
      obtain ⟨alive, ⟨⟩⟩ := Option.ite_none_left_eq_some.mp taken
      exact inv.destroy (Bool.eq_false_iff.mpr alive)

theorem inv_of_run {start : LinkedClient} (constructed : start.Constructed) {events : List Event}
    (reached : run? step (new start) events = some s) : s.Inv :=
  run?_invariant (fun _ _ _ inv taken => Inv.step inv taken) (inv_new constructed) reached

/-! ## Loops that are used when they have been stopped -/

/-- No `TcpClient` is destroyed late, the loops of the client are not stopped while its
heartbeat runs, and a client that owns its loop is destroyed without a `TcpClient`. -/
def Careful (s : HeartbeatClient) : Event → Prop
  | .client event =>
      s.destroysLate event = false ∧ (s.heartbeatRunning = true → ¬ s.linked.StopsLoops event)
  | .destroy => s.linked.ownsLoopThread = true → s.linked.tcpClient = none
  | _ => True

/-- No stopped loop has been used, and the pointer is not to one. -/
def Holds (s : HeartbeatClient) : Prop :=
  s.usedLoop = false ∧ ∀ id, s.heartbeatLoop = some id → id ∈ s.linked.loops.running

theorem holds_of_cleared (cleared : s.heartbeatLoop = none) : s.Holds ↔ s.usedLoop = false := by
  rw [Holds, cleared]
  simp

/-- A step of the client loses the loop of the heartbeat exactly when it stops it. -/
theorem Inv.holds_client (inv : s.Inv) {event : LinkedClient.Event} {linked : LinkedClient}
    (taken : s.linked.step event = some linked) :
    Holds { s with linked := linked, usedLoop := s.usedLoop || s.destroysLate event } ↔
      s.Holds ∧ s.Careful (.client event) := by
  have pointer : (∀ id, s.heartbeatLoop = some id → id ∈ linked.loops.running) ↔
      (∀ id, s.heartbeatLoop = some id → id ∈ s.linked.loops.running) ∧
        (s.heartbeatRunning = true → ¬ s.linked.StopsLoops event) := by
    rw [← inv.tracked]
    cases here : s.heartbeatLoop with
    | none => simp
    | some id =>
        have old := inv.older id here
        simp only [Option.isSome_some, Option.some.injEq, forall_eq', forall_const]
        by_cases stops : s.linked.StopsLoops event
        · have lost := (inv.wired.replaces_step stops taken).stopped id old
          exact iff_of_false lost fun kept => kept.2 stops
        · have kept := (inv.wired.extends_step stops taken).running id old
          exact kept.trans (and_iff_left stops).symm
  rw [Holds, Holds, Careful, Bool.or_eq_false_iff, pointer]
  exact and_and_and_comm

theorem Inv.holds_startHeartbeat (inv : s.Inv) : s.startHeartbeat.Holds ↔ s.Holds := by
  unfold HeartbeatClient.startHeartbeat
  split
  · exact Iff.rfl
  · next id chosen =>
      split
      · exact Iff.rfl
      · next stopped =>
          have idle : s.heartbeatLoop = none := by
            rw [← Option.isNone_iff_eq_none, ← Option.not_isSome, inv.tracked]
            exact Bool.not_eq_true' _ ▸ Bool.eq_false_iff.mpr stopped
          have running := inv.wired.timeoutLoop_running chosen
          simp [Holds, idle, running]

theorem Inv.holds_stopHeartbeat (inv : s.Inv) : s.stopHeartbeat.Holds ↔ s.Holds := by
  rw [inv.stopHeartbeat_eq]
  cases here : s.heartbeatLoop with
  | none => simp [Holds, here]
  | some id => simp [Holds, here]

/-- Without a `TcpClient` the client has no loop whose timers would hold one. -/
theorem Inv.not_holdsClient (inv : s.Inv) (owns : s.linked.ownsLoopThread = true)
    (absent : s.linked.tcpClient = none) : s.holdsClient = false := by
  refine List.any_eq_false.mpr fun timer queued holds => ?_
  obtain ⟨captured, running⟩ := Bool.and_eq_true_iff.mp holds
  cases registry : s.linked.usesRegistry with
  | true =>
      rw [inv.deaf registry timer (Or.inl queued)] at captured
      cases captured
  | false =>
      rcases inv.wired.owned owns _ (of_decide_eq_true running) with thread | endpoint
      · rw [inv.threaded absent] at thread
        cases thread
      · rw [inv.wired.single registry] at endpoint
        cases endpoint

theorem Inv.holds_destroy (inv : s.Inv) : s.destroy.Holds ↔ s.Holds ∧ s.Careful .destroy := by
  have stopped := inv.stopHeartbeat_eq
  have cleared : s.stopHeartbeat.heartbeatLoop = none := by rw [stopped]
  have same : s.stopHeartbeat.linked = s.linked := by rw [stopped]
  have late : s.Careful .destroy → s.stopHeartbeat.destroysLate .disconnect = false := by
    intro careful
    cases owns : s.linked.ownsLoopThread with
    | false => rw [destroysLate, same, owns, Bool.false_and]
    | true =>
        rw [destroysLate, inv.stopHeartbeat.not_holdsClient (same ▸ owns) (same ▸ careful owns),
          Bool.and_false]
  have copy : (s.linked.ownsLoopThread && s.linked.tcpClient.isSome) = false ↔
      s.Careful .destroy := by
    rw [Careful, Bool.and_eq_false_imp, Option.isSome_eq_false_iff, Option.isNone_iff_eq_none]
  have gone : s.destroy.heartbeatLoop = none := cleared
  rw [← inv.holds_stopHeartbeat, holds_of_cleared cleared, holds_of_cleared gone]
  change (_ || _ || _) = false ↔ _
  rw [Bool.or_eq_false_iff, Bool.or_eq_false_iff, copy]
  constructor
  · rintro ⟨⟨unused, _⟩, careful⟩
    exact ⟨unused, careful⟩
  · rintro ⟨unused, careful⟩
    exact ⟨⟨unused, late careful⟩, careful⟩

theorem holds_beat (s : HeartbeatClient) (timer : HeartbeatTimer) :
    (s.beat timer).Holds ↔ s.Holds := by
  unfold beat
  split
  · exact Iff.rfl
  · exact Iff.rfl

theorem Inv.holds_step (inv : s.Inv) {event : Event} (taken : s.step event = some next) :
    next.Holds ↔ s.Holds ∧ s.Careful event := by
  cases event with
  | client event =>
      obtain ⟨_, stepped⟩ := Option.ite_none_left_eq_some.mp taken
      obtain ⟨linked, moved, rfl⟩ := Option.map_eq_some_iff.mp stepped
      exact inv.holds_client moved
  | startHeartbeat =>
      obtain ⟨_, ⟨⟩⟩ := Option.ite_none_left_eq_some.mp taken
      exact inv.holds_startHeartbeat.trans (and_iff_left trivial).symm
  | stopHeartbeat =>
      obtain ⟨_, ⟨⟩⟩ := Option.ite_none_left_eq_some.mp taken
      exact inv.holds_stopHeartbeat.trans (and_iff_left trivial).symm
  | collect =>
      rw [HeartbeatClient.step] at taken
      split at taken
      · cases taken
      · obtain ⟨_, ⟨⟩⟩ := Option.ite_none_right_eq_some.mp taken
        exact (and_iff_left trivial).symm
  | drop timer =>
      obtain ⟨_, ⟨⟩⟩ := Option.ite_none_right_eq_some.mp taken
      exact (and_iff_left trivial).symm
  | beat timer =>
      obtain ⟨_, ⟨⟩⟩ := Option.ite_none_right_eq_some.mp taken
      exact (s.holds_beat timer).trans (and_iff_left trivial).symm
  | destroy =>
      obtain ⟨_, ⟨⟩⟩ := Option.ite_none_left_eq_some.mp taken
      exact inv.holds_destroy

theorem sameMode_stepped (inv : s.Inv) {event : Event} (taken : s.step event = some next) :
    LinkedClient.SameMode next.linked s.linked := by
  cases event with
  | client event =>
      obtain ⟨_, stepped⟩ := Option.ite_none_left_eq_some.mp taken
      obtain ⟨linked, moved, rfl⟩ := Option.map_eq_some_iff.mp stepped
      exact LinkedClient.sameMode_step moved
  | startHeartbeat =>
      obtain ⟨_, ⟨⟩⟩ := Option.ite_none_left_eq_some.mp taken
      unfold HeartbeatClient.startHeartbeat
      split
      · exact ⟨rfl, rfl⟩
      · split
        · exact ⟨rfl, rfl⟩
        · exact ⟨rfl, rfl⟩
  | stopHeartbeat =>
      obtain ⟨_, ⟨⟩⟩ := Option.ite_none_left_eq_some.mp taken
      rw [inv.stopHeartbeat_eq]
      exact ⟨rfl, rfl⟩
  | collect =>
      rw [HeartbeatClient.step] at taken
      split at taken
      · cases taken
      · obtain ⟨_, ⟨⟩⟩ := Option.ite_none_right_eq_some.mp taken
        exact ⟨rfl, rfl⟩
  | drop timer =>
      obtain ⟨_, ⟨⟩⟩ := Option.ite_none_right_eq_some.mp taken
      exact ⟨rfl, rfl⟩
  | beat timer =>
      obtain ⟨_, ⟨⟩⟩ := Option.ite_none_right_eq_some.mp taken
      unfold HeartbeatClient.beat
      split
      · exact ⟨rfl, rfl⟩
      · exact ⟨rfl, rfl⟩
  | destroy =>
      obtain ⟨_, ⟨⟩⟩ := Option.ite_none_left_eq_some.mp taken
      exact ⟨rfl, rfl⟩

section Runs

variable {start : LinkedClient} {events : List Event} {final : HeartbeatClient}

theorem sameMode_of_run (constructed : start.Constructed)
    (reached : run? step (new start) events = some final) :
    LinkedClient.SameMode final.linked start := by
  have kept : ∀ (s : HeartbeatClient) event next, s.Inv ∧ s.linked.SameMode start →
      s.step event = some next → next.Inv ∧ next.linked.SameMode start := by
    rintro s event next ⟨inv, same⟩ taken
    have stepped := sameMode_stepped inv taken
    exact ⟨inv.step taken, stepped.usesRegistry.trans same.usesRegistry,
      stepped.ownsLoopThread.trans same.ownsLoopThread⟩
  exact (run?_invariant kept ⟨inv_new constructed, rfl, rfl⟩ reached).2

/-- A client in the registry mode sends no heartbeat, whatever its timer does. -/
theorem registry_sends_no_heartbeat (constructed : start.Constructed)
    (registry : start.usesRegistry = true)
    (reached : run? step (new start) events = some final) : final.sent = 0 := by
  have inv := inv_of_run constructed reached
  exact inv.silent ((sameMode_of_run constructed reached).usesRegistry.trans registry)

/-- What is left of a client that was destroyed with no timer being run. -/
structure Quiet (s : HeartbeatClient) : Prop where
  destroyed : s.destroyed = true
  timer : s.timer = none
  collected : s.collected = []
  usedClient : s.usedClient = false

/-- All that happens to it is that a pass drops a timer. -/
theorem Quiet.step (quiet : s.Quiet) {event : Event} (taken : s.step event = some next) :
    next.Quiet := by
  cases event with
  | collect => simp [HeartbeatClient.step, quiet.timer] at taken
  | beat timer => simp [HeartbeatClient.step, quiet.collected] at taken
  | client _ | startHeartbeat | stopHeartbeat | destroy =>
      simp [HeartbeatClient.step, quiet.destroyed] at taken
  | drop timer =>
      obtain ⟨_, ⟨⟩⟩ := Option.ite_none_right_eq_some.mp taken
      exact ⟨quiet.destroyed, quiet.timer, quiet.collected, quiet.usedClient⟩

/--
The destructor of a client lets a heartbeat run on the destroyed client iff the loop is
borrowed from a pool and a pass of it has collected the timer and not run it yet.
-/
theorem destroyed_client_used_iff (constructed : start.Constructed)
    (reached : run? step (new start) events = some s) (alive : s.destroyed = false) :
    (∃ later final, run? step s (.destroy :: later) = some final ∧ final.usedClient = true) ↔
      start.ownsLoopThread = false ∧ s.collected ≠ [] := by
  have inv := inv_of_run constructed reached
  have mode := (sameMode_of_run constructed reached).ownsLoopThread
  have destroys : s.step .destroy = some s.destroy := by simp [step, alive]
  have stopped := inv.stopHeartbeat_eq
  constructor
  · rintro ⟨later, final, ran, used⟩
    obtain ⟨next, taken, tail⟩ := run?_cons_eq_some.mp ran
    cases destroys.symm.trans taken
    have last : final.Inv := run?_invariant (fun _ _ _ inv taken => Inv.step inv taken) inv ran
    have same := (sameMode_of_run constructed (run?_append reached ran)).ownsLoopThread
    refine ⟨same.symm.trans (last.unused used).2, fun nothing => ?_⟩
    have quiet : s.destroy.Quiet := by
      refine ⟨rfl, ?_, ?_, ?_⟩
      · rw [destroy, stopped]
      · rw [destroy, stopped]
        exact nothing
      · rw [destroy, stopped]
        exact Bool.eq_false_iff.mpr fun used =>
          absurd (inv.unused used).1 (Bool.eq_false_iff.mp alive)
    have still : final.Quiet := run?_invariant (fun _ _ _ quiet taken => quiet.step taken) quiet tail
    exact absurd used (Bool.eq_false_iff.mp still.usedClient)
  · rintro ⟨pooled, some_collected⟩
    have pooled : s.linked.ownsLoopThread = false := mode.trans pooled
    obtain ⟨timer, collected⟩ := List.exists_mem_of_ne_nil _ some_collected
    have beats : s.destroy.step (.beat timer) = some (s.destroy.beat timer) := by
      refine if_pos ⟨?_, ?_⟩
      · rw [destroy, stopped]
        exact collected
      · -- the destructor leaves the loop of the pool alone
        have loops : s.destroy.linked.loops = s.linked.loops := inv.wired.loops_disconnect pooled
        rw [loops]
        exact inv.borrowed pooled timer collected
    refine ⟨[.beat timer], s.destroy.beat timer, ?_, ?_⟩
    · exact run?_cons_eq_some.mpr ⟨_, destroys, run?_cons_eq_some.mpr ⟨_, beats, rfl⟩⟩
    · have gone : s.destroy.destroyed = true := rfl
      rw [beat, if_pos gone]

/-! ### Runs -/

/-- Where a run of the client ends. -/
def after (start : LinkedClient) (events : List Event) : HeartbeatClient :=
  (run? step (new start) events).getD (new start)

/-- The heartbeat is stopped, and its timer is dropped, before the client disconnects. -/
def stoppedInTime : List Event :=
  [.client (.connect [] .up), .startHeartbeat, .collect, .beat ⟨0, true⟩, .stopHeartbeat,
    .drop ⟨0, true⟩, .client .disconnect, .destroy]

example : (after LinkedClient.directClient stoppedInTime).sent = 1 := by decide

/-- A client that is destroyed while it is connected destroys its `TcpClient` behind the
loop. -/
example : (after LinkedClient.directClient
    [.client (.connect [] .up), .destroy]).usedLoop = true := by
  decide

def registryClient : LinkedClient := .owning true true [] none .rr none

/-- Two nodes are connected, and the timer of the heartbeat runs. -/
def registryBeats : List Event :=
  [.client (.connect LinkedClient.twoNodes .up), .startHeartbeat, .collect, .beat ⟨0, false⟩]

theorem registry_sends_no_heartbeat_registryBeats :
    (after registryClient registryBeats).linked.connected = true ∧
      (after registryClient registryBeats).sent = 0 := by
  have reached : run? step (new registryClient) registryBeats =
      some (after registryClient registryBeats) := rfl
  exact ⟨rfl, registry_sends_no_heartbeat (.owning true true [] none .rr none) rfl reached⟩

/-- A client of a pool whose heartbeat is about to be run. -/
def pooledClient : LinkedClient := .pooled (some (some true)) true [] none

def aboutToBeat : List Event := [.startHeartbeat, .collect]

theorem destroyed_client_used_iff_aboutToBeat :
    (∃ later final, run? step (after pooledClient aboutToBeat) (.destroy :: later) = some final ∧
        final.usedClient = true) ↔
      pooledClient.ownsLoopThread = false ∧ (after pooledClient aboutToBeat).collected ≠ [] := by
  have reached : run? step (new pooledClient) aboutToBeat =
      some (after pooledClient aboutToBeat) := rfl
  exact destroyed_client_used_iff (.pooled (some (some true)) true [] none) reached rfl

end Runs

end HeartbeatClient

end RpcFramework.Client
