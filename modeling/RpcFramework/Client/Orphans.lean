import RpcFramework.Client.Wiring

/-!
# Pending requests and their timers

A pending request is completed by a response or by its timer.  The timer of a call
sits in a loop of the client, and `disconnect` stops the loops that the client owns
with the timers in them; a second `connect` in the direct mode replaces the loop of
the first.  Neither completes the requests that are pending: nothing but the
destructor can complete them then.

The invariant counts: under every request id there are at least as many timers as
entries.  It also holds when the ids wrap around and an id is used twice.
-/

namespace RpcFramework

open Client Codec

namespace RpcAsyncClient

variable {s : RpcAsyncClient} {reqId : UInt64} {c : CallId} {promises callbacks : PendingTable}

/-! ## Counting entries -/

def entriesIn (promises callbacks : PendingTable) (reqId : UInt64) : Nat :=
  (promises.lookup reqId).isSome.toNat + (callbacks.lookup reqId).isSome.toNat

/-- How many entries the tables have under an id. -/
def entries (s : RpcAsyncClient) : UInt64 → Nat := entriesIn s.pendingPromises s.pendingCallbacks

theorem Pending.entries_pos (pending : s.Pending reqId c) : 0 < s.entries reqId := by
  unfold entries entriesIn
  rcases pending with promise | callback
  · rw [promise]
    exact Nat.add_pos_left Nat.one_pos _
  · rw [callback]
    exact Nat.add_pos_right _ Nat.one_pos

theorem entries_eq_zero (nothing : ∀ c, ¬ s.Pending reqId c) : s.entries reqId = 0 := by
  have promise : s.pendingPromises.lookup reqId = none :=
    Option.eq_none_iff_forall_not_mem.mpr fun c found => nothing c (Or.inl found)
  have callback : s.pendingCallbacks.lookup reqId = none :=
    Option.eq_none_iff_forall_not_mem.mpr fun c found => nothing c (Or.inr found)
  rw [entries, entriesIn, promise, callback]
  rfl

theorem toNat_isSome_le_one {α : Type} (entry : Option α) : entry.isSome.toNat ≤ 1 :=
  Bool.toNat_le _

theorem Entered.entriesIn_le (entered : s.Entered reqId c promises callbacks) (other : UInt64) :
    entriesIn promises callbacks other ≤ s.entries other + if other = reqId then 1 else 0 := by
  unfold entries entriesIn
  split
  · have promise := toNat_isSome_le_one (promises.lookup other)
    have callback := toNat_isSome_le_one (callbacks.lookup other)
    cases entered with
    | promise => omega
    | callback => omega
  · next differs =>
      rw [(entered.others differs).1, (entered.others differs).2]
      exact Nat.le_refl _

theorem Taken.entriesIn_add (taken : s.Taken reqId c promises callbacks) (other : UInt64) :
    entriesIn promises callbacks other + (if other = reqId then 1 else 0) = s.entries other := by
  unfold entries entriesIn
  split
  · next same =>
      subst same
      cases taken with
      | promise found =>
          rw [AList.lookup_erase, found]
          exact Nat.add_right_comm ..
      | callback absent found =>
          rw [AList.lookup_erase, found]
          rfl
  · next differs =>
      rw [(taken.others differs).1, (taken.others differs).2]
      rfl

/-- A handler takes an entry out if there is one. -/
theorem entries_settle (s : RpcAsyncClient) (handler : Handler) (other : UInt64) :
    (s.settle handler).entries other =
      s.entries other - if other = handler.reqId then 1 else 0 := by
  rcases s.settle_cases handler with ⟨absent, stray⟩ | ⟨c, promises, callbacks, _, taken, settled⟩
  · rw [stray]
    split
    · next same =>
        subst same
        obtain ⟨promise, callback⟩ := Option.or_eq_none_iff.mp absent
        rw [entries, entriesIn, promise, callback]
        rfl
    · rfl
  · rw [settled, ← taken.entriesIn_add other, Nat.add_sub_cancel]
    rfl

end RpcAsyncClient

namespace Client.LinkedClient

variable {s next : LinkedClient}

/-! ## The invariant -/

def NothingPending (s : LinkedClient) : Prop := ∀ reqId c, ¬ s.client.Pending reqId c

/-- Every entry has a timer in a loop that has not been stopped. -/
def NoOrphan (s : LinkedClient) : Prop :=
  ∀ reqId c, s.client.Pending reqId c → ∃ id ∈ s.loops.running, (id, reqId) ∈ s.loops.timers

/-- The call has a timeout. -/
def Event.Timed : Event → Prop
  | .asyncCall call => 0 < call.timeoutMs
  | _ => True

/-- No loop is stopped or replaced while requests are pending. -/
def KeepsTimers (s : LinkedClient) : Event → Prop
  | .disconnect => s.ownsLoopThread = true → s.NothingPending
  | .connect _ _ => s.client.invalid = false → s.ownsLoopThread = true →
      s.usesRegistry = false → s.NothingPending
  | _ => True

structure Guarded (s : LinkedClient) : Prop where
  wired : s.Wired
  counted : ∀ reqId, s.client.entries reqId ≤ s.loops.armed reqId

theorem Guarded.noOrphan (guarded : s.Guarded) : s.NoOrphan := by
  intro reqId c pending
  have armed : 0 < s.loops.armed reqId :=
    Nat.lt_of_lt_of_le pending.entries_pos (guarded.counted reqId)
  obtain ⟨timer, member, rfl⟩ := List.mem_map.mp (List.count_pos_iff.mp armed)
  exact ⟨timer.1, s.loops.held timer member, member⟩

theorem NothingPending.counted (nothing : s.NothingPending) (loops : EventLoops)
    (reqId : UInt64) : s.client.entries reqId ≤ loops.armed reqId := by
  rw [RpcAsyncClient.entries_eq_zero (nothing reqId)]
  exact Nat.zero_le _

theorem Constructed.nothingPending (constructed : s.Constructed) : s.NothingPending := by
  intro reqId c
  cases constructed with
  | owning usesRegistry validHost chain circuitBreaker lbPolicy consistentHash =>
      exact (Or.elim · nofun nofun)
  | pooled tcpClient claimed chain circuitBreaker =>
      cases tcpClient with
      | none => exact (Or.elim · nofun nofun)
      | some connection =>
          cases claimed with
          | false => exact (Or.elim · nofun nofun)
          | true => exact (Or.elim · nofun nofun)

theorem Constructed.guarded (constructed : s.Constructed) : s.Guarded :=
  ⟨constructed.wired, constructed.nothingPending.counted s.loops⟩

/-! ### Connecting and disconnecting -/

theorem armed_connectNode (s : LinkedClient) (node : Node) (reqId : UInt64) :
    (s.connectNode node).loops.armed reqId = s.loops.armed reqId := by
  unfold connectNode
  dsimp only
  split
  · rfl
  · exact EventLoops.armed_startLoop_stop

theorem armed_connectViaRegistry (s : LinkedClient) (nodes : List Node) (reqId : UInt64) :
    (s.connectViaRegistry nodes).1.loops.armed reqId = s.loops.armed reqId := by
  have linked : (nodes.foldl connectNode s).loops.armed reqId = s.loops.armed reqId := by
    induction nodes generalizing s with
    | nil => rfl
    | cons node nodes ih => exact (ih _).trans (s.armed_connectNode node reqId)
  unfold connectViaRegistry
  dsimp only
  split
  · exact linked
  · exact linked

theorem Guarded.connect (guarded : s.Guarded) {nodes : List Node} {dial : Dial}
    (good : s.KeepsTimers (.connect nodes dial)) : (s.connect nodes dial).1.Guarded := by
  refine ⟨guarded.wired.connect nodes dial, fun reqId => ?_⟩
  rw [(s.connect_frame nodes dial).1]
  unfold LinkedClient.connect
  split
  · exact guarded.counted reqId
  · next valid =>
      split
      · exact guarded.counted reqId
      · next owns =>
          split
          · rw [s.armed_connectViaRegistry nodes reqId]
            exact guarded.counted reqId
          · next direct =>
              have nothing := good (Bool.eq_false_iff.mpr valid) (by simpa using owns)
                (Bool.eq_false_iff.mpr direct)
              exact nothing.counted _ reqId

theorem Guarded.disconnect (guarded : s.Guarded) (good : s.KeepsTimers .disconnect) :
    s.disconnect.Guarded := by
  refine ⟨guarded.wired.disconnect, fun reqId => ?_⟩
  cases owns : s.ownsLoopThread with
  | true => exact (good owns).counted _ reqId
  | false =>
      rw [guarded.wired.loops_disconnect owns]
      exact guarded.counted reqId

/-! ### Calls and handlers -/

/-- A call that fails at once leaves no entry behind. -/
theorem entries_failed {client : RpcAsyncClient} (alive : client.destroyed = false) (c : CallId)
    {outcome : RpcAsyncClient.Sent} (lost : outcome ≠ .sent) (now : Int) (other : UInt64) :
    (failed (client.send c outcome now) c).entries other =
      client.entries other - if other = (client.calls c).reqId then 1 else 0 := by
  have sameId : ((client.failAtOnce c now).calls c).reqId = (client.calls c).reqId := by
    rw [RpcAsyncClient.failAtOnce, calls_setCall]
    rfl
  rw [failed_of_not_sent alive c lost, ← sameId]
  exact RpcAsyncClient.entries_settle (client.failAtOnce c now) (.timeout _) other

/-- Both sides of a call: the entry that it may leave and the timer that it arms. -/
theorem Guarded.doCall (guarded : s.Guarded) (c : CallId) {call : Outgoing}
    (timed : 0 < call.timeoutMs) : (s.doCall c call).Guarded := by
  refine ⟨guarded.wired.doCall c call, fun reqId => ?_⟩
  obtain ⟨rrIndex, called⟩ := s.doCall_eq c call
  obtain ⟨promises, callbacks, entered, armed⟩ :=
    arm_register_eq s.client c (s.timerLoop call.timeoutMs).isSome
  have before := guarded.counted reqId
  have made := entered.entriesIn_le reqId
  have loop : s.timerLoop call.timeoutMs = s.timeoutLoop := if_pos timed
  rw [called]
  dsimp only
  by_cases sent : (s.deliver call.packet call.hashKey).2 = .sent
  · obtain ⟨id, running, chosen⟩ := guarded.wired.timeoutLoop_of_sent sent
    rw [sent, failed_of_sent, armTimer, loop, chosen]
    dsimp only
    rw [EventLoops.armed_runAfter running]
    change ((s.client.register c).arm c (s.timerLoop call.timeoutMs).isSome).entries reqId ≤ _
    rw [armed]
    change RpcAsyncClient.entriesIn promises callbacks reqId ≤ _
    omega
  · have alive : ((s.client.register c).arm c (s.timerLoop call.timeoutMs).isSome).destroyed =
        false := by
      rw [armed]
      exact guarded.wired.alive
    have sameId : (((s.client.register c).arm c (s.timerLoop call.timeoutMs).isSome).calls c).reqId =
        (s.client.calls c).reqId := by
      have moved := congrArg CallRecord.reqId
        (calls_setCall s.client c ((s.client.calls c).moveTo .send))
      rw [armed]
      exact moved
    rw [entries_failed alive c sent, sameId, armed]
    change RpcAsyncClient.entriesIn promises callbacks reqId - _ ≤ _
    have timers := s.le_armed_armTimer (s.client.calls c).reqId call.timeoutMs reqId
    omega

/-- A change of the client that keeps its tables and its timers. -/
theorem Guarded.setClient (guarded : s.Guarded) {client : RpcAsyncClient}
    (alive : client.destroyed = s.client.destroyed) (timers : client.timers = s.client.timers)
    (promises : client.pendingPromises = s.client.pendingPromises)
    (callbacks : client.pendingCallbacks = s.client.pendingCallbacks) :
    Guarded { s with client := client } := by
  refine ⟨guarded.wired.setClient alive timers, ?_⟩
  unfold RpcAsyncClient.entries
  dsimp only
  rw [promises, callbacks]
  exact guarded.counted

theorem Guarded.asyncCall (guarded : s.Guarded) {call : Outgoing} (timed : 0 < call.timeoutMs) :
    (s.asyncCall call).Guarded := by
  rcases s.asyncCall_cases call with ⟨client, turned, alive, timers, promises, callbacks⟩ | made
  · rw [turned]
    exact guarded.setClient alive timers promises callbacks
  · obtain ⟨alive, timers, promises, callbacks⟩ := entered_frame s.client call
    rw [made]
    exact (guarded.setClient alive timers promises callbacks).doCall _ timed

theorem entries_handled (client : RpcAsyncClient) (handler : Handler) (now : Int) (other : UInt64) :
    (handled client handler now).entries other =
      client.entries other - if other = handler.reqId then 1 else 0 :=
  RpcAsyncClient.entries_settle (client.record handler now) handler other

theorem Guarded.packet (guarded : s.Guarded) (packet : DecodedPacket) (now : Int) :
    Guarded { s with client := handled s.client (.response packet) now } := by
  obtain ⟨timers, destroyed⟩ := handled_frame s.client (.response packet) now
  refine ⟨guarded.wired.setClient destroyed timers, fun reqId => ?_⟩
  have before := guarded.counted reqId
  dsimp only
  rw [entries_handled]
  omega

/-- A timer that comes due takes its entry with it. -/
theorem Guarded.timer (guarded : s.Guarded) {id : LoopId} {reqId : UInt64}
    (armed : (id, reqId) ∈ s.loops.timers) (now : Int) :
    Guarded { s with
      loops := s.loops.expire (id, reqId)
      client := handled { s.client with timers := s.client.timers.erase reqId }
        (.timeout reqId) now } := by
  refine ⟨guarded.wired.timer armed now, fun other => ?_⟩
  have before := guarded.counted other
  have expired := EventLoops.armed_expire armed other
  dsimp only at expired ⊢
  rw [entries_handled]
  change s.client.entries other - (if other = reqId then 1 else 0) ≤ _
  omega

theorem Guarded.step (guarded : s.Guarded) {event : Event} (timed : event.Timed)
    (good : s.KeepsTimers event) (taken : s.step event = some next) : next.Guarded := by
  have wired := guarded.wired.step taken
  cases event with
  | connect nodes dial =>
      cases taken
      exact guarded.connect good
  | disconnect =>
      cases taken
      exact guarded.disconnect good
  | asyncCall call =>
      cases taken
      exact guarded.asyncCall timed
  | resume c =>
      obtain ⟨client, resumed, rfl⟩ := Option.map_eq_some_iff.mp taken
      cases RpcAsyncClient.steps_of_step resumed with
      | resume made phase completed => exact guarded.setClient rfl rfl rfl rfl
  | packet packet now =>
      rw [LinkedClient.step] at taken
      split at taken
      · cases taken
        exact guarded.packet packet now
      · cases taken
        exact guarded
  | timer id reqId now =>
      obtain ⟨armed, expired⟩ := Option.ite_none_right_eq_some.mp taken
      cases expired
      exact guarded.timer armed now
  | connection endpoint connection =>
      cases taken
      cases endpoint with
      | none => exact ⟨wired, guarded.counted⟩
      | some i => exact ⟨wired, guarded.counted⟩

/-! ## Orphans -/

/-- Behind a direct `connect` only the new loop runs, and it has no timers. -/
theorem Wired.connectDirect_loops (wired : s.Wired) (direct : s.usesRegistry = false)
    (owns : s.ownsLoopThread = true) (dial : Dial) :
    (∀ id ∈ (s.connectDirect dial).1.loops.running, id = s.loops.started) ∧
      (s.connectDirect dial).1.loops.timers ⊆ s.loops.timers := by
  have running : ∀ id ∈ (s.loops.startLoop.stopAll s.loopThread.toList).running,
      id = s.loops.started := fun id => wired.running_connectDirect direct owns
  have timers : (s.loops.startLoop.stopAll s.loopThread.toList).timers ⊆ s.loops.timers :=
    EventLoops.timers_stopAll_subset _
  have stopped : (∀ id ∈ ((s.loops.startLoop.stopAll s.loopThread.toList).stop
      s.loops.started).running, id = s.loops.started) ∧
      ((s.loops.startLoop.stopAll s.loopThread.toList).stop s.loops.started).timers ⊆
        s.loops.timers :=
    ⟨fun id member => running id (Finset.mem_of_mem_erase member),
      List.Subset.trans (List.filter_subset_self _) timers⟩
  unfold LinkedClient.connectDirect
  dsimp only
  split
  · cases dial with
    | up => exact ⟨running, timers⟩
    | refused => exact stopped
    | timeout => exact stopped
  · exact stopped

/-- A loop that goes while requests are pending leaves them behind. -/
theorem Wired.orphans (wired : s.Wired) {event : Event} (stops : ¬ s.KeepsTimers event)
    (taken : s.step event = some next) : ¬ next.NoOrphan := by
  intro guarded
  cases event with
  | connect nodes dial =>
      simp only [KeepsTimers, Classical.not_imp, NothingPending, not_forall, not_not] at stops
      obtain ⟨valid, owns, direct, reqId, c, pending⟩ := stops
      cases taken
      have connected : s.connect nodes dial = s.connectDirect dial := by
        rw [LinkedClient.connect, valid, owns, direct]
        rfl
      rw [← (s.connect_frame nodes dial).1] at pending
      obtain ⟨id, running, armed⟩ := guarded reqId c pending
      rw [connected] at running armed
      obtain ⟨onlyNew, timers⟩ := wired.connectDirect_loops direct owns dial
      refine EventLoops.started_not_running (l := s.loops) ?_
      rw [← onlyNew id running]
      exact s.loops.held _ (timers armed)
  | disconnect =>
      simp only [KeepsTimers, Classical.not_imp, NothingPending, not_forall, not_not] at stops
      obtain ⟨owns, reqId, c, pending⟩ := stops
      cases taken
      obtain ⟨id, running, _⟩ := guarded reqId c pending
      exact wired.running_disconnect owns id running
  | asyncCall call => exact stops trivial
  | resume c => exact stops trivial
  | packet packet now => exact stops trivial
  | timer id reqId now => exact stops trivial
  | connection endpoint connection => exact stops trivial

/--
In a run of calls with a timeout, every pending request has a timer in a running loop
at every moment iff no loop is stopped or replaced while requests are pending.
-/
theorem no_orphan_iff {start final : LinkedClient} (constructed : start.Constructed)
    {events : List Event} (timed : ∀ event ∈ events, event.Timed)
    (ran : StepRun.run? step start events = some final) :
    (∀ first rest middle, events = first ++ rest →
      StepRun.run? step start first = some middle → middle.NoOrphan) ↔
      StepRun.Along step KeepsTimers start events :=
  StepRun.run?_always_iff_along
    (fun _ _ _ guarded timed good taken => Guarded.step guarded timed good taken)
    (fun _ guarded => guarded.noOrphan)
    (fun _ _ _ guarded stops taken => guarded.wired.orphans stops taken)
    constructed.guarded timed ran

/-- A client in the direct mode, without interceptors. -/
def directClient : LinkedClient := owning false true [] none .rr none

/-- A call with a callback whose packet is sent. -/
def echoCall : Outgoing := ⟨.callback, fun _ => ⟨true, 0, 0⟩, 5000, [1], [0x45], 0⟩

/-- The response comes before the client disconnects. -/
def answeredRun : List Event :=
  [.connect [] .up, .asyncCall echoCall, .packet (.fresh .response 1) 7, .disconnect]

theorem no_orphan_iff_answeredRun :
    (∀ first rest middle, answeredRun = first ++ rest →
      StepRun.run? step directClient first = some middle → middle.NoOrphan) ↔
      StepRun.Along step KeepsTimers directClient answeredRun := by
  have timed : ∀ event ∈ answeredRun, event.Timed := by
    simp [answeredRun, Event.Timed, echoCall]
  exact no_orphan_iff (.owning false true [] none .rr none) timed rfl

/-- A client that disconnects with a call outstanding keeps its entry, and no loop of
the client runs any more. -/
theorem disconnect_leaves_orphan :
    ∃ final, StepRun.run? step directClient
        [.connect [] .up, .asyncCall echoCall, .disconnect] = some final ∧
      final.client.pendingCallbacks.lookup 1 = some 0 ∧ final.loops.running = ∅ ∧
      ¬ final.NoOrphan := by
  refine ⟨_, rfl, rfl, rfl, ?_⟩
  intro guarded
  obtain ⟨id, running, _⟩ := guarded 1 0 (Or.inr rfl)
  exact absurd running (Finset.notMem_empty id)

end Client.LinkedClient

end RpcFramework
