import RpcFramework.Client.Endpoints
import RpcFramework.Lib.StepRun

/-!
# The wiring of the client

What the steps of a client keep of its loops and connections: the loops that a call
can arm its timer in run, and a client that owns its threads runs no loops but those
of its connections.  Every step is a run of the client model, so that what holds of
the calls there holds of the calls here.
-/

namespace RpcFramework.Client

open Codec

/-! ## Loops -/

namespace EventLoops

variable {l : EventLoops} {id : LoopId} {reqId : UInt64}

theorem mem_running_stopAll {ids : List LoopId} {other : LoopId} :
    other ∈ (l.stopAll ids).running ↔ other ∉ ids ∧ other ∈ l.running := by
  induction ids generalizing l with
  | nil => exact ⟨fun member => ⟨List.not_mem_nil, member⟩, And.right⟩
  | cons id ids ih =>
      rw [stopAll, List.foldl_cons]
      refine ih.trans ?_
      rw [stop, Finset.mem_erase, List.mem_cons, not_or]
      exact ⟨fun kept => ⟨⟨kept.2.1, kept.1⟩, kept.2.2⟩, fun kept => ⟨kept.1.2, kept.1.1, kept.2⟩⟩

theorem started_not_running : l.started ∉ l.running := fun member =>
  Nat.lt_irrefl _ (l.fresh _ member)

theorem armed_stop_le : (l.stop id).armed reqId ≤ l.armed reqId :=
  (List.filter_sublist.map Prod.snd).count_le reqId

theorem timers_stopAll_subset (ids : List LoopId) : (l.stopAll ids).timers ⊆ l.timers := by
  induction ids generalizing l with
  | nil => exact List.Subset.refl _
  | cons id ids ih => exact List.Subset.trans ih (List.filter_subset_self _)

/-- A loop that is stopped right after its start takes no timers with it. -/
theorem armed_startLoop_stop : (l.startLoop.stop l.started).armed reqId = l.armed reqId := by
  have kept : l.timers.filter (fun timer => timer.1 ≠ l.started) = l.timers := by
    refine List.filter_eq_self.mpr fun timer member => decide_eq_true ?_
    rintro same
    exact started_not_running (same ▸ l.held timer member)
  exact congrArg (fun timers => (timers.map Prod.snd).count reqId) kept

theorem armed_stopAll_le (ids : List LoopId) : (l.stopAll ids).armed reqId ≤ l.armed reqId := by
  induction ids generalizing l with
  | nil => exact Nat.le_refl _
  | cons id ids ih => exact ih.trans armed_stop_le

theorem running_runAfter : (l.runAfter id reqId).running = l.running := by
  unfold runAfter
  split
  · rfl
  · rfl

theorem armed_runAfter (alive : id ∈ l.running) (other : UInt64) :
    (l.runAfter id reqId).armed other = l.armed other + if other = reqId then 1 else 0 := by
  rw [runAfter, dif_pos alive, armed, armed, List.map_cons, List.count_cons]
  simp only [beq_iff_eq, @eq_comm _ reqId]

theorem armed_le_runAfter (other : UInt64) : l.armed other ≤ (l.runAfter id reqId).armed other := by
  by_cases alive : id ∈ l.running
  · rw [armed_runAfter alive other]
    exact Nat.le_add_right _ _
  · rw [runAfter, dif_neg alive]

theorem armed_runAfter_le (other : UInt64) :
    (l.runAfter id reqId).armed other ≤ l.armed other + if other = reqId then 1 else 0 := by
  by_cases alive : id ∈ l.running
  · exact (armed_runAfter alive other).le
  · rw [runAfter, dif_neg alive]
    exact Nat.le_add_right _ _

theorem armed_expire {timer : LoopId × UInt64} (member : timer ∈ l.timers) (other : UInt64) :
    (l.expire timer).armed other + (if other = timer.2 then 1 else 0) = l.armed other := by
  have split := ((List.perm_cons_erase member).map Prod.snd).count_eq other
  rw [List.map_cons, List.count_cons] at split
  rw [armed, armed, split]
  simp only [expire, beq_iff_eq, @eq_comm _ timer.2]

end EventLoops

namespace LinkedClient

/-! ## How loops and connections hang together -/

def endpointLoops (s : LinkedClient) : List LoopId := s.endpoints.map fun ep => ep.tcpClient.loop

/-- What a client waits on and sends through lives in loops that run, and a client that
owns its threads runs no other loops. -/
structure Wired (s : LinkedClient) : Prop where
  alive : s.client.destroyed = false
  armed : ∀ reqId, s.loops.armed reqId ≤ s.client.timers.count reqId
  loop : ∀ id, s.loop = some id → id ∈ s.loops.running
  thread : ∀ id, s.loopThread = some id → id ∈ s.loops.running
  linked : s.tcpClient.isSome = true → s.loop.isSome = true
  endpoints : ∀ id ∈ s.endpointLoops, id ∈ s.loops.running
  owned : s.ownsLoopThread = true →
    ∀ id ∈ s.loops.running, s.loopThread = some id ∨ id ∈ s.endpointLoops
  single : s.usesRegistry = false → s.endpointLoops = []
  several : s.usesRegistry = true → s.loopThread = none ∧ s.loop = none ∧ s.tcpClient = none
  unresolved : s.ownsLoopThread = true → s.validHost = false → s.tcpClient = none
  borrowed : s.ownsLoopThread = false → s.loopThread = none ∧ s.usesRegistry = false

/-- The same loops run, and the connections live in them as before. -/
structure SameWiring (s next : LinkedClient) : Prop where
  usesRegistry : next.usesRegistry = s.usesRegistry
  ownsLoopThread : next.ownsLoopThread = s.ownsLoopThread
  validHost : next.validHost = s.validHost
  running : next.loops.running = s.loops.running
  loop : next.loop = s.loop
  loopThread : next.loopThread = s.loopThread
  tcpClient : next.tcpClient.isSome = s.tcpClient.isSome
  endpointLoops : next.endpointLoops = s.endpointLoops

variable {s next : LinkedClient}

theorem Wired.rewired (wired : s.Wired) (same : s.SameWiring next)
    (alive : next.client.destroyed = false)
    (armed : ∀ reqId, next.loops.armed reqId ≤ next.client.timers.count reqId) : next.Wired := by
  have absent : s.tcpClient = none → next.tcpClient = none := by
    intro none
    rw [← Option.isNone_iff_eq_none, ← Option.not_isSome, same.tcpClient, none]
    rfl
  refine ⟨alive, armed, ?_, ?_, ?_, ?_, ?_, ?_, ?_, ?_, ?_⟩
  · rw [same.loop, same.running]
    exact wired.loop
  · rw [same.loopThread, same.running]
    exact wired.thread
  · rw [same.tcpClient, same.loop]
    exact wired.linked
  · rw [same.endpointLoops, same.running]
    exact wired.endpoints
  · rw [same.ownsLoopThread, same.running, same.loopThread, same.endpointLoops]
    exact wired.owned
  · rw [same.usesRegistry, same.endpointLoops]
    exact wired.single
  · rw [same.usesRegistry, same.loopThread, same.loop]
    intro registry
    obtain ⟨thread, loop, tcpClient⟩ := wired.several registry
    exact ⟨thread, loop, absent tcpClient⟩
  · rw [same.ownsLoopThread, same.validHost]
    exact fun owns invalid => absent (wired.unresolved owns invalid)
  · rw [same.ownsLoopThread, same.loopThread, same.usesRegistry]
    exact wired.borrowed

/-- A client that no call was made on. -/
inductive Constructed : LinkedClient → Prop
  | owning (usesRegistry validHost : Bool) (chain : List Interceptor)
      (circuitBreaker : Option CircuitBreaker) (lbPolicy : LBPolicy)
      (consistentHash : Option ConsistentHash) :
      Constructed (owning usesRegistry validHost chain circuitBreaker lbPolicy consistentHash)
  | pooled (tcpClient : Option (Option Bool)) (claimed : Bool) (chain : List Interceptor)
      (circuitBreaker : Option CircuitBreaker) :
      Constructed (pooled tcpClient claimed chain circuitBreaker)

theorem Constructed.wired (constructed : s.Constructed) : s.Wired := by
  cases constructed with
  | owning usesRegistry validHost chain circuitBreaker lbPolicy consistentHash =>
      exact ⟨rfl, fun _ => Nat.le_refl 0, nofun, nofun, nofun, nofun,
        fun _ id member => absurd member (Finset.notMem_empty id), fun _ => rfl,
        fun _ => ⟨rfl, rfl, rfl⟩, fun _ _ => rfl, nofun⟩
  | pooled tcpClient claimed chain circuitBreaker =>
      cases tcpClient with
      | none =>
          exact ⟨rfl, fun _ => Nat.le_refl 0, nofun, nofun, nofun, nofun, nofun, fun _ => rfl, nofun,
            nofun, fun _ => ⟨rfl, rfl⟩⟩
      | some connection =>
          cases claimed with
          | false =>
              exact ⟨rfl, fun _ => Nat.le_refl 0, nofun, nofun, nofun, nofun, nofun, fun _ => rfl,
                nofun, nofun, fun _ => ⟨rfl, rfl⟩⟩
          | true =>
              refine ⟨rfl, fun _ => Nat.le_refl 0, ?_, nofun, fun _ => rfl, nofun, nofun,
                fun _ => rfl, nofun, nofun, fun _ => ⟨rfl, rfl⟩⟩
              intro id same
              cases same
              exact Finset.mem_insert_self ..

/-! ### Connecting and disconnecting -/

/-- A client without connections, whose own loops have been stopped. -/
theorem wired_of_idle (alive : next.client.destroyed = false)
    (armed : ∀ reqId, next.loops.armed reqId ≤ next.client.timers.count reqId)
    (loop : next.loop = none) (loopThread : next.loopThread = none)
    (tcpClient : next.tcpClient = none) (endpoints : next.endpointLoops = [])
    (stopped : next.ownsLoopThread = true → ∀ id, id ∉ next.loops.running)
    (borrowed : next.ownsLoopThread = false → next.usesRegistry = false) : next.Wired := by
  refine ⟨alive, armed, ?_, ?_, ?_, ?_, ?_, fun _ => endpoints,
    fun _ => ⟨loopThread, loop, tcpClient⟩, fun _ _ => tcpClient,
    fun pooled => ⟨loopThread, borrowed pooled⟩⟩
  · rw [loop]
    exact nofun
  · rw [loopThread]
    exact nofun
  · rw [tcpClient]
    exact nofun
  · rw [endpoints]
    exact nofun
  · exact fun owns id member => absurd member (stopped owns id)

section Owning

variable (wired : s.Wired) (direct : s.usesRegistry = false) (owns : s.ownsLoopThread = true)
include wired direct owns

/-- A second `connectDirect` leaves no loop of the first one running. -/
theorem Wired.running_connectDirect {id : LoopId}
    (member : id ∈ (s.loops.startLoop.stopAll s.loopThread.toList).running) :
    id = s.loops.started := by
  obtain ⟨kept, member⟩ := EventLoops.mem_running_stopAll.mp member
  rcases Finset.mem_insert.mp member with new | old
  · exact new
  · rcases wired.owned owns id old with thread | endpoint
    · rw [thread] at kept
      exact absurd (List.mem_singleton.mpr rfl) kept
    · rw [wired.single direct] at endpoint
      cases endpoint

theorem Wired.connectDirect_fails (tcpClient : Option TcpLink) (connected : Bool)
    (absent : tcpClient = none) :
    Wired { s with
      loops := (s.loops.startLoop.stopAll s.loopThread.toList).stop s.loops.started
      loop := none
      loopThread := none
      tcpClient := tcpClient
      connected := connected } := by
  refine wired_of_idle wired.alive ?_ rfl rfl absent (wired.single direct) ?_ fun _ => direct
  · intro reqId
    exact (EventLoops.armed_stop_le.trans (EventLoops.armed_stopAll_le _)).trans (wired.armed reqId)
  · intro _ id member
    obtain ⟨differs, member⟩ := Finset.mem_erase.mp member
    exact differs (wired.running_connectDirect direct owns member)

theorem Wired.connectDirect (dial : Dial) : (s.connectDirect dial).1.Wired := by
  unfold LinkedClient.connectDirect
  dsimp only
  split
  · next valid =>
      cases dial with
      | up =>
          have new : s.loops.started ∈
              (s.loops.startLoop.stopAll s.loopThread.toList).running := by
            refine EventLoops.mem_running_stopAll.mpr ⟨?_, Finset.mem_insert_self ..⟩
            intro old
            exact EventLoops.started_not_running (wired.thread _ (Option.mem_toList.mp old))
          refine ⟨wired.alive, ?_, ?_, ?_, fun _ => rfl, ?_, ?_, wired.single, ?_, ?_, ?_⟩
          · exact fun reqId => (EventLoops.armed_stopAll_le _).trans (wired.armed reqId)
          · rintro id ⟨⟩
            exact new
          · rintro id ⟨⟩
            exact new
          · intro id member
            have member : id ∈ s.endpointLoops := member
            rw [wired.single direct] at member
            cases member
          · intro _ id member
            exact Or.inl (congrArg some (wired.running_connectDirect direct owns member).symm)
          · intro registry
            exact absurd (direct.symm.trans registry) (by decide)
          · intro _ invalid
            exact absurd (valid.symm.trans invalid) (by decide)
          · intro pooled
            exact absurd (owns.symm.trans pooled) (by decide)
      | refused => exact wired.connectDirect_fails direct owns none false rfl
      | timeout => exact wired.connectDirect_fails direct owns none s.connected rfl
  · next invalid =>
      exact wired.connectDirect_fails direct owns s.tcpClient s.connected
        (wired.unresolved owns (Bool.eq_false_iff.mpr invalid))

end Owning

theorem Wired.connectNode (wired : s.Wired) (registry : s.usesRegistry = true) (node : Node) :
    (s.connectNode node).Wired := by
  have threads := wired.several registry
  have running : ∀ id ∈ s.endpointLoops, id ∈ s.loops.startLoop.running := fun id member =>
    Finset.mem_insert_of_mem (wired.endpoints id member)
  unfold LinkedClient.connectNode
  dsimp only
  split
  · -- the new loop belongs to the new endpoint
    have appended : ∀ ring, endpointLoops { s with
        loops := s.loops.startLoop
        endpoints := s.endpoints ++ [⟨node.host, node.port, ⟨s.loops.started, some true⟩⟩]
        consistentHash := ring } = s.endpointLoops ++ [s.loops.started] := fun _ => by
      rw [endpointLoops, List.map_append]
      rfl
    refine ⟨wired.alive, wired.armed, ?_, ?_, wired.linked, ?_, ?_, ?_, wired.several,
      wired.unresolved, wired.borrowed⟩
    · exact fun id same => Finset.mem_insert_of_mem (wired.loop id same)
    · exact fun id same => Finset.mem_insert_of_mem (wired.thread id same)
    · intro id member
      rw [appended] at member
      rcases List.mem_append.mp member with old | new
      · exact running id old
      · rw [List.mem_singleton.mp new]
        exact Finset.mem_insert_self ..
    · intro owns id member
      rw [appended]
      rcases Finset.mem_insert.mp member with rfl | old
      · exact Or.inr (List.mem_append_right _ (List.mem_singleton.mpr rfl))
      · exact (wired.owned owns id old).imp_right (List.mem_append_left _)
    · intro direct
      exact absurd (direct.symm.trans registry) (by decide)
  · -- the new loop has been stopped again
    have same : (s.loops.startLoop.stop s.loops.started).running = s.loops.running := by
      exact Finset.erase_insert EventLoops.started_not_running
    refine wired.rewired ⟨rfl, rfl, rfl, same, rfl, rfl, rfl, rfl⟩ wired.alive ?_
    exact fun reqId => EventLoops.armed_stop_le.trans (wired.armed reqId)

theorem Wired.connectViaRegistry (wired : s.Wired) (registry : s.usesRegistry = true)
    (nodes : List Node) : (s.connectViaRegistry nodes).1.Wired := by
  have linked : (nodes.foldl LinkedClient.connectNode s).Wired := by
    induction nodes generalizing s with
    | nil => exact wired
    | cons node nodes ih =>
        refine ih (wired.connectNode registry node) ?_
        unfold LinkedClient.connectNode
        dsimp only
        split
        · exact registry
        · exact registry
  unfold LinkedClient.connectViaRegistry
  dsimp only
  split
  · exact linked
  · exact linked.rewired ⟨rfl, rfl, rfl, rfl, rfl, rfl, rfl, rfl⟩ linked.alive linked.armed

theorem Wired.connect (wired : s.Wired) (nodes : List Node) (dial : Dial) :
    (s.connect nodes dial).1.Wired := by
  unfold LinkedClient.connect
  split
  · exact wired
  · split
    · exact wired
    · next owns =>
        have owns : s.ownsLoopThread = true := by simpa using owns
        split
        · next registry => exact wired.connectViaRegistry registry nodes
        · next direct => exact wired.connectDirect (Bool.eq_false_iff.mpr direct) owns dial

/-- `disconnect` stops every loop of a client that owns its threads. -/
theorem Wired.running_disconnect (wired : s.Wired) (owns : s.ownsLoopThread = true) (id : LoopId) :
    id ∉ s.disconnect.loops.running := by
  unfold LinkedClient.disconnect
  dsimp only
  rw [if_pos owns]
  intro member
  obtain ⟨noThread, member⟩ := EventLoops.mem_running_stopAll.mp member
  obtain ⟨noEndpoint, member⟩ := EventLoops.mem_running_stopAll.mp member
  rcases wired.owned owns id member with thread | endpoint
  · exact noThread (Option.mem_toList.mpr thread)
  · exact noEndpoint endpoint

theorem armed_disconnect_le (s : LinkedClient) (reqId : UInt64) :
    s.disconnect.loops.armed reqId ≤ s.loops.armed reqId := by
  unfold LinkedClient.disconnect
  dsimp only
  split
  · exact (EventLoops.armed_stopAll_le _).trans (EventLoops.armed_stopAll_le _)
  · exact EventLoops.armed_stopAll_le _

theorem Wired.disconnect (wired : s.Wired) : s.disconnect.Wired := by
  refine wired_of_idle wired.alive ?_ rfl ?_ rfl rfl ?_ fun pooled => (wired.borrowed pooled).2
  · exact fun reqId => (s.armed_disconnect_le reqId).trans (wired.armed reqId)
  · unfold LinkedClient.disconnect
    dsimp only
    split
    · rfl
    · next pooled => exact (wired.borrowed (Bool.eq_false_iff.mpr pooled)).1
  · exact fun owns => wired.running_disconnect owns

/-- A borrowed `TcpClient` leaves its loop to the pool. -/
theorem Wired.loops_disconnect (wired : s.Wired) (pooled : s.ownsLoopThread = false) :
    s.disconnect.loops = s.loops := by
  have noEndpoints : s.endpoints.map (fun ep => ep.tcpClient.loop) = [] :=
    wired.single (wired.borrowed pooled).2
  unfold LinkedClient.disconnect
  dsimp only
  rw [pooled, noEndpoints]
  rfl

/-! ## The calls of the client model -/

section Calls

open StepRun

variable {client : RpcAsyncClient} {c : CallId}

theorem calls_setCall (client : RpcAsyncClient) (c : CallId) (record : CallRecord) :
    (client.setCall c record).calls c = record := Function.update_self ..

/-- An interceptor changes the breaker and the phase of the call. -/
theorem preHandle_eq (client : RpcAsyncClient) (c : CallId) (interceptor : Interceptor)
    (rest : List Interceptor) (verdict : Verdict) :
    ∃ circuitBreaker breakerCalls record, record.reqId = (client.calls c).reqId ∧
      (record.phase = .returned ∨
        record.phase = if rest.isEmpty then .register else .chain rest) ∧
      client.preHandle c interceptor rest verdict.passes verdict.now verdict.later =
        { client.setCall c record with
          circuitBreaker := circuitBreaker, breakerCalls := breakerCalls } := by
  refine ⟨_, _, _, ?_, ?_, rfl⟩
  · split
    · rfl
    · rfl
  · split
    · exact Or.inr rfl
    · exact Or.inl rfl

theorem runChain_eq (verdicts : Nat → Verdict) (chain : List Interceptor)
    (client : RpcAsyncClient) (c : CallId) :
    ∃ circuitBreaker breakerCalls record, record.reqId = (client.calls c).reqId ∧
      runChain c verdicts chain client =
        { client.setCall c record with
          circuitBreaker := circuitBreaker, breakerCalls := breakerCalls } := by
  induction chain generalizing client with
  | nil =>
      refine ⟨client.circuitBreaker, client.breakerCalls, client.calls c, rfl, ?_⟩
      rw [RpcAsyncClient.setCall, Function.update_eq_self]
      rfl
  | cons interceptor rest ih =>
      obtain ⟨cb, calls, record, sameId, _, passed⟩ :=
        preHandle_eq client c interceptor rest (verdicts rest.length)
      rw [runChain, passed]
      dsimp only
      split
      · exact ⟨cb, calls, record, sameId, rfl⟩
      · obtain ⟨last, lastCalls, final, keptId, ran⟩ :=
          ih { client.setCall c record with circuitBreaker := cb, breakerCalls := calls }
        refine ⟨last, lastCalls, final, ?_, ?_⟩
        · exact keptId.trans ((congrArg CallRecord.reqId (calls_setCall client c record)).trans sameId)
        · rw [ran]
          simp only [RpcAsyncClient.setCall, Function.update_idem]

/-- The interceptors are steps of the client model. -/
theorem runChain_runs {verdicts : Nat → Verdict} {chain : List Interceptor}
    (made : c < client.issued)
    (phase : (client.calls c).phase = if chain.isEmpty then .register else .chain chain) :
    ∃ events, run? RpcAsyncClient.step client events = some (runChain c verdicts chain client) := by
  induction chain generalizing client with
  | nil => exact ⟨[], rfl⟩
  | cons interceptor rest ih =>
      have phase : (client.calls c).phase = .chain (interceptor :: rest) := phase
      let verdict := verdicts rest.length
      have first : client.step (.preHandle c verdict.passes verdict.now verdict.later) =
          some (client.preHandle c interceptor rest verdict.passes verdict.now verdict.later) := by
        rw [RpcAsyncClient.step, if_pos made, phase]
      rw [runChain]
      split
      · exact ⟨[_], run?_cons_eq_some.mpr ⟨_, first, rfl⟩⟩
      · next open_call =>
          obtain ⟨cb, calls, record, _, ended | passed, next⟩ :=
            preHandle_eq client c interceptor rest verdict
          · rw [next] at open_call
            exact absurd ((congrArg CallRecord.phase (calls_setCall client c record)).trans ended)
              open_call
          · obtain ⟨events, ran⟩ := @ih
              (client.preHandle c interceptor rest verdict.passes verdict.now verdict.later)
              (by rw [next]; exact made)
              (by
                rw [next]
                exact (congrArg CallRecord.phase (calls_setCall client c record)).trans passed)
            exact ⟨_ :: events, run?_cons_eq_some.mpr ⟨_, first, ran⟩⟩

/-- Registered, and its timer armed. -/
theorem arm_register_eq (client : RpcAsyncClient) (c : CallId) (timer : Bool) :
    ∃ promises callbacks, client.Entered (client.calls c).reqId c promises callbacks ∧
      (client.register c).arm c timer =
        { client.setCall c ((client.calls c).moveTo .send) with
          pendingPromises := promises
          pendingCallbacks := callbacks
          timers := if timer then (client.calls c).reqId :: client.timers else client.timers } := by
  obtain ⟨promises, callbacks, entered, registered⟩ := client.register_eq c
  refine ⟨promises, callbacks, entered, ?_⟩
  rw [registered]
  simp only [RpcAsyncClient.arm, RpcAsyncClient.setCall, Function.update_self,
    Function.update_idem, CallRecord.moveTo]

theorem afterSend_ne_failing (client : RpcAsyncClient) (overload : Overload) :
    client.afterSend overload ≠ .failing := by
  unfold RpcAsyncClient.afterSend
  split
  · exact nofun
  · exact nofun

theorem failed_of_sent (client : RpcAsyncClient) (c : CallId) (now : Int) :
    failed (client.send c .sent now) c =
      client.setCall c ((client.calls c).moveTo (client.afterSend (client.calls c).overload)) := by
  have sent : client.send c .sent now =
      client.setCall c ((client.calls c).moveTo (client.afterSend (client.calls c).overload)) := by
    rw [RpcAsyncClient.send, if_pos (Or.inl rfl)]
  rw [sent, failed, calls_setCall]
  exact if_neg (afterSend_ne_failing client _)

theorem failed_of_not_sent (alive : client.destroyed = false) (c : CallId)
    {outcome : RpcAsyncClient.Sent} (lost : outcome ≠ .sent) (now : Int) :
    failed (client.send c outcome now) c =
      (client.failAtOnce c now).fail c := by
  have notSent : client.send c outcome now = client.failAtOnce c now := by
    refine if_neg ?_
    rintro (sent | destroyed)
    · exact lost sent
    · exact absurd (alive.symm.trans destroyed) (by decide)
  rw [notSent, failed, RpcAsyncClient.failAtOnce, calls_setCall]
  exact if_pos rfl

theorem settle_frame (client : RpcAsyncClient) (handler : Handler) :
    (client.settle handler).timers = client.timers ∧
      (client.settle handler).destroyed = client.destroyed := by
  rcases client.settle_cases handler with ⟨_, stray⟩ | ⟨c, promises, callbacks, _, _, settled⟩
  · rw [stray]
    exact ⟨rfl, rfl⟩
  · rw [settled]
    exact ⟨rfl, rfl⟩

theorem failed_send_frame (alive : client.destroyed = false) (c : CallId)
    (outcome : RpcAsyncClient.Sent) (now : Int) :
    (failed (client.send c outcome now) c).timers = client.timers ∧
      (failed (client.send c outcome now) c).destroyed = client.destroyed := by
  by_cases sent : outcome = .sent
  · rw [sent, failed_of_sent]
    exact ⟨rfl, rfl⟩
  · rw [failed_of_not_sent alive c sent]
    exact settle_frame (client.failAtOnce c now) _

theorem issued_send (client : RpcAsyncClient) (c : CallId) (outcome : RpcAsyncClient.Sent)
    (now : Int) : (client.send c outcome now).issued = client.issued := by
  unfold RpcAsyncClient.send
  dsimp only
  split
  · rfl
  · rfl

/-- The steps of a call behind the chain are steps of the client model. -/
theorem failed_send_runs (made : c < client.issued) (phase : (client.calls c).phase = .register)
    (timer : Bool) (outcome : RpcAsyncClient.Sent) (now : Int) :
    ∃ events, run? RpcAsyncClient.step client events =
      some (failed (((client.register c).arm c timer).send c outcome now) c) := by
  have register : client.step (.register c) = some (client.register c) := if_pos ⟨made, phase⟩
  obtain ⟨promises, callbacks, _, registered⟩ := client.register_eq c
  have arm : (client.register c).step (.arm c timer) = some ((client.register c).arm c timer) := by
    refine if_pos ?_
    rw [registered]
    exact ⟨made, congrArg CallRecord.phase (calls_setCall ..)⟩
  have send : ((client.register c).arm c timer).step (.send c outcome now) =
      some (((client.register c).arm c timer).send c outcome now) := by
    refine if_pos ⟨?_, congrArg CallRecord.phase (calls_setCall ..)⟩
    rw [registered]
    exact made
  unfold failed
  split
  · next failing =>
      have fail : (((client.register c).arm c timer).send c outcome now).step (.fail c) =
          some ((((client.register c).arm c timer).send c outcome now).fail c) := by
        refine if_pos ⟨?_, failing⟩
        rw [issued_send, RpcAsyncClient.arm, registered]
        exact made
      exact ⟨[.register c, .arm c timer, .send c outcome now, .fail c],
        run?_cons_eq_some.mpr ⟨_, register, run?_cons_eq_some.mpr ⟨_, arm,
          run?_cons_eq_some.mpr ⟨_, send, run?_cons_eq_some.mpr ⟨_, fail, rfl⟩⟩⟩⟩⟩
  · exact ⟨[.register c, .arm c timer, .send c outcome now],
      run?_cons_eq_some.mpr ⟨_, register, run?_cons_eq_some.mpr ⟨_, arm,
        run?_cons_eq_some.mpr ⟨_, send, rfl⟩⟩⟩⟩

end Calls

/-! ## A call and the loops -/

theorem deliver_eq (s : LinkedClient) (packet hashKey : Bytes) :
    ∃ rrIndex, (s.deliver packet hashKey).1 = { s with rrIndex := rrIndex } := by
  unfold deliver
  split
  · exact ⟨s.rrIndex, rfl⟩
  · dsimp only
    unfold sendRequest getTcpClient
    dsimp only
    split
    · exact ⟨s.rrIndex, rfl⟩
    · split
      · exact ⟨s.rrIndex, rfl⟩
      · exact ⟨s.rrIndex + 1, rfl⟩

theorem deliver_sent {packet hashKey : Bytes} (sent : (s.deliver packet hashKey).2 = .sent) :
    (s.sendRequest hashKey).2.isSome = true := by
  unfold deliver at sent
  split at sent
  · cases sent
  · dsimp only at sent
    split at sent
    · assumption
    · cases sent

/-- A packet that is sent goes through a link, and then the timer has a loop that runs. -/
theorem Wired.timeoutLoop_of_sent (wired : s.Wired) {packet hashKey : Bytes}
    (sent : (s.deliver packet hashKey).2 = .sent) :
    ∃ id ∈ s.loops.running, s.timeoutLoop = some id := by
  unfold timeoutLoop
  cases endpoints : s.endpoints with
  | cons ep rest =>
      refine ⟨ep.tcpClient.loop, wired.endpoints _ ?_, rfl⟩
      rw [endpointLoops, endpoints]
      exact List.mem_cons_self
  | nil =>
      have handed := deliver_sent sent
      unfold sendRequest getTcpClient at handed
      rw [endpoints, List.isEmpty_nil, if_pos rfl] at handed
      have linked : s.tcpClient.isSome = true := by
        cases absent : s.tcpClient with
        | none =>
            rw [absent] at handed
            dsimp only at handed
            split at handed
            · cases handed
            · cases handed
        | some link => rfl
      obtain ⟨id, here⟩ := Option.isSome_iff_exists.mp (wired.linked linked)
      exact ⟨id, wired.loop id here, here⟩

theorem doCall_eq (s : LinkedClient) (c : CallId) (call : Outgoing) :
    ∃ rrIndex, s.doCall c call = { s with
      rrIndex := rrIndex
      loops := s.armTimer (s.client.calls c).reqId call.timeoutMs
      client := failed (((s.client.register c).arm c (s.timerLoop call.timeoutMs).isSome).send c
        (s.deliver call.packet call.hashKey).2 call.now) c } := by
  obtain ⟨rrIndex, delivered⟩ := s.deliver_eq call.packet call.hashKey
  refine ⟨rrIndex, ?_⟩
  unfold doCall
  dsimp only
  rw [delivered]

theorem running_armTimer (s : LinkedClient) (reqId : UInt64) (timeoutMs : Int) :
    (s.armTimer reqId timeoutMs).running = s.loops.running := by
  unfold armTimer
  split
  · exact EventLoops.running_runAfter
  · rfl

theorem le_armed_armTimer (s : LinkedClient) (reqId : UInt64) (timeoutMs : Int) (other : UInt64) :
    s.loops.armed other ≤ (s.armTimer reqId timeoutMs).armed other := by
  unfold armTimer
  split
  · exact EventLoops.armed_le_runAfter other
  · exact Nat.le_refl _

theorem Wired.doCall (wired : s.Wired) (c : CallId) (call : Outgoing) : (s.doCall c call).Wired := by
  obtain ⟨rrIndex, called⟩ := s.doCall_eq c call
  obtain ⟨promises, callbacks, _, armed⟩ :=
    arm_register_eq s.client c (s.timerLoop call.timeoutMs).isSome
  have alive : ((s.client.register c).arm c (s.timerLoop call.timeoutMs).isSome).destroyed =
      false := by
    rw [armed]
    exact wired.alive
  obtain ⟨timers, destroyed⟩ :=
    failed_send_frame alive c (s.deliver call.packet call.hashKey).2 call.now
  rw [called]
  refine wired.rewired ⟨rfl, rfl, rfl, s.running_armTimer .., rfl, rfl, rfl, rfl⟩
    (destroyed.trans alive) ?_
  intro reqId
  have before := wired.armed reqId
  dsimp only
  rw [timers, armed]
  dsimp only [armTimer]
  cases s.timerLoop call.timeoutMs with
  | none => exact before
  | some id =>
      refine (EventLoops.armed_runAfter_le reqId).trans ?_
      rw [Option.isSome_some, if_pos rfl, List.count_cons]
      simp only [beq_iff_eq, @eq_comm _ (s.client.calls c).reqId]
      exact Nat.add_le_add_right before _

/-- A change of the client that keeps its timers. -/
theorem Wired.setClient (wired : s.Wired) {client : RpcAsyncClient}
    (alive : client.destroyed = s.client.destroyed) (timers : client.timers = s.client.timers) :
    Wired { s with client := client } := by
  refine wired.rewired ⟨rfl, rfl, rfl, rfl, rfl, rfl, rfl, rfl⟩ (alive.trans wired.alive) ?_
  dsimp only
  rw [timers]
  exact wired.armed

/-- A call that has passed the chain, or has been turned away. -/
theorem asyncCall_client (client : RpcAsyncClient) (overload : Overload) :
    (client.asyncCall overload).destroyed = client.destroyed ∧
      (client.asyncCall overload).timers = client.timers ∧
      (client.asyncCall overload).pendingPromises = client.pendingPromises ∧
      (client.asyncCall overload).pendingCallbacks = client.pendingCallbacks := by
  unfold RpcAsyncClient.asyncCall
  split
  · exact ⟨rfl, rfl, rfl, rfl⟩
  · exact ⟨rfl, rfl, rfl, rfl⟩

/-- The client when the chain has been run. -/
def entered (client : RpcAsyncClient) (call : Outgoing) : RpcAsyncClient :=
  runChain client.issued call.verdicts (client.asyncCall call.overload).chain
    (client.asyncCall call.overload)

theorem entered_frame (client : RpcAsyncClient) (call : Outgoing) :
    (entered client call).destroyed = client.destroyed ∧
      (entered client call).timers = client.timers ∧
      (entered client call).pendingPromises = client.pendingPromises ∧
      (entered client call).pendingCallbacks = client.pendingCallbacks := by
  obtain ⟨cb, calls, record, _, ran⟩ := runChain_eq call.verdicts
    (client.asyncCall call.overload).chain (client.asyncCall call.overload) client.issued
  rw [entered, ran]
  exact asyncCall_client client call.overload

/-- What a call can come to: it is turned away, or it is made. -/
theorem asyncCall_cases (s : LinkedClient) (call : Outgoing) :
    (∃ client, s.asyncCall call = { s with client := client } ∧
      client.destroyed = s.client.destroyed ∧ client.timers = s.client.timers ∧
      client.pendingPromises = s.client.pendingPromises ∧
      client.pendingCallbacks = s.client.pendingCallbacks) ∨
    s.asyncCall call =
      { s with client := entered s.client call }.doCall s.client.issued call := by
  unfold LinkedClient.asyncCall
  dsimp only
  split
  · exact Or.inl ⟨_, rfl, asyncCall_client s.client call.overload⟩
  · split
    · exact Or.inr rfl
    · exact Or.inl ⟨_, rfl, entered_frame s.client call⟩

theorem Wired.asyncCall (wired : s.Wired) (call : Outgoing) : (s.asyncCall call).Wired := by
  rcases s.asyncCall_cases call with ⟨client, turned, alive, timers, _⟩ | made
  · rw [turned]
    exact wired.setClient alive timers
  · obtain ⟨alive, timers, _⟩ := entered_frame s.client call
    rw [made]
    exact (wired.setClient alive timers).doCall _ call

theorem handled_frame (client : RpcAsyncClient) (handler : Handler) (now : Int) :
    (handled client handler now).timers = client.timers ∧
      (handled client handler now).destroyed = client.destroyed :=
  settle_frame (client.record handler now) handler

theorem Wired.timer (wired : s.Wired) {id : LoopId} {reqId : UInt64}
    (armed : (id, reqId) ∈ s.loops.timers) (now : Int) :
    Wired { s with
      loops := s.loops.expire (id, reqId)
      client := handled { s.client with timers := s.client.timers.erase reqId }
        (.timeout reqId) now } := by
  obtain ⟨timers, destroyed⟩ := handled_frame
    { s.client with timers := s.client.timers.erase reqId } (.timeout reqId) now
  refine wired.rewired ⟨rfl, rfl, rfl, rfl, rfl, rfl, rfl, rfl⟩ (destroyed.trans wired.alive) ?_
  intro other
  have before := wired.armed other
  have expired := EventLoops.armed_expire armed other
  dsimp only at expired ⊢
  rw [timers, List.count_erase]
  simp only [beq_iff_eq, @eq_comm _ reqId]
  omega

theorem endpointLoops_modify (s : LinkedClient) (i : Nat) (connection : Option Bool) :
    (s.setConnection (some i) connection).endpointLoops = s.endpointLoops := by
  refine List.ext_getElem? fun j => ?_
  rw [endpointLoops, endpointLoops, setConnection, List.getElem?_map, List.getElem?_map,
    List.getElem?_modify]
  cases s.endpoints[j]? with
  | none => rfl
  | some ep =>
      by_cases here : i = j
      · simp only [if_pos here]
        rfl
      · simp only [if_neg here]
        rfl

/-- Every step keeps the wiring. -/
theorem Wired.step (wired : s.Wired) {event : Event} (taken : s.step event = some next) :
    next.Wired := by
  cases event with
  | connect nodes dial =>
      cases taken
      exact wired.connect nodes dial
  | disconnect =>
      cases taken
      exact wired.disconnect
  | asyncCall call =>
      cases taken
      exact wired.asyncCall call
  | resume c =>
      obtain ⟨client, resumed, rfl⟩ := Option.map_eq_some_iff.mp taken
      cases RpcAsyncClient.steps_of_step resumed with
      | resume made phase completed => exact wired.setClient rfl rfl
  | packet packet now =>
      rw [LinkedClient.step] at taken
      split at taken
      · cases taken
        obtain ⟨timers, destroyed⟩ := handled_frame s.client (.response packet) now
        exact wired.setClient destroyed timers
      · cases taken
        exact wired
  | timer id reqId now =>
      obtain ⟨armed, expired⟩ := Option.ite_none_right_eq_some.mp taken
      cases expired
      exact wired.timer armed now
  | connection endpoint connection =>
      cases taken
      cases endpoint with
      | none =>
          refine wired.rewired ⟨rfl, rfl, rfl, rfl, rfl, rfl, ?_, rfl⟩ wired.alive wired.armed
          exact Option.isSome_map ..
      | some i =>
          exact wired.rewired ⟨rfl, rfl, rfl, rfl, rfl, rfl, rfl,
            s.endpointLoops_modify i connection⟩
            wired.alive wired.armed

/-- The steps by what they do to the links: all but three kinds leave them as they are. -/
inductive Relinks (s : LinkedClient) : Event → LinkedClient → Prop
  | connect (nodes : List Node) (dial : Dial) :
      Relinks s (.connect nodes dial) (s.connect nodes dial).1
  | disconnect : Relinks s .disconnect s.disconnect
  | connection (endpoint : Option Nat) (connection : Option Bool) :
      Relinks s (.connection endpoint connection) (s.setConnection endpoint connection)
  | kept {event : Event} (other : event ≠ .disconnect) (client : RpcAsyncClient)
      (rrIndex : UInt64) {loops : EventLoops} (started : loops.started = s.loops.started)
      (running : loops.running = s.loops.running) :
      Relinks s event { s with client := client, rrIndex := rrIndex, loops := loops }

theorem started_armTimer (s : LinkedClient) (reqId : UInt64) (timeoutMs : Int) :
    (s.armTimer reqId timeoutMs).started = s.loops.started := by
  unfold armTimer EventLoops.runAfter
  split
  · split
    · rfl
    · rfl
  · rfl

theorem relinks_of_step {event : Event} (taken : s.step event = some next) :
    s.Relinks event next := by
  cases event with
  | connect nodes dial =>
      cases taken
      exact .connect nodes dial
  | disconnect =>
      cases taken
      exact .disconnect
  | asyncCall call =>
      cases taken
      rcases s.asyncCall_cases call with ⟨client, turned, _⟩ | made
      · rw [turned]
        exact .kept Event.noConfusion client s.rrIndex rfl rfl
      · obtain ⟨rrIndex, called⟩ :=
          doCall_eq { s with client := entered s.client call } s.client.issued call
        rw [made, called]
        exact .kept Event.noConfusion _ rrIndex (started_armTimer ..) (running_armTimer ..)
  | resume c =>
      obtain ⟨client, _, rfl⟩ := Option.map_eq_some_iff.mp taken
      exact .kept Event.noConfusion client s.rrIndex rfl rfl
  | packet packet now =>
      rw [LinkedClient.step] at taken
      split at taken
      · cases taken
        exact .kept Event.noConfusion _ s.rrIndex rfl rfl
      · cases taken
        exact .kept Event.noConfusion s.client s.rrIndex rfl rfl
  | timer id reqId now =>
      obtain ⟨_, ⟨⟩⟩ := Option.ite_none_right_eq_some.mp taken
      exact .kept Event.noConfusion _ s.rrIndex rfl rfl
  | connection endpoint connection =>
      cases taken
      exact .connection endpoint connection

/-! ## Every step is a run of the client model -/

section Refinement

open StepRun

theorem handled_runs {client : RpcAsyncClient} {packet : DecodedPacket}
    (kind : packet.msgType = .response) (now : Int) :
    run? RpcAsyncClient.step client [.packet packet now, .settle 0] =
      some (handled client (.response packet) now) := by
  have received : client.step (.packet packet now) = some (client.handleResponse packet now) :=
    congrArg some (if_pos kind)
  exact run?_cons_eq_some.mpr ⟨_, received, rfl⟩

theorem doCall_runs {c : CallId} (made : c < s.client.issued)
    (phase : (s.client.calls c).phase = .register) (call : Outgoing) :
    ∃ events, run? RpcAsyncClient.step s.client events = some (s.doCall c call).client := by
  obtain ⟨rrIndex, called⟩ := s.doCall_eq c call
  rw [called]
  exact failed_send_runs made phase _ _ _

theorem asyncCall_entered {client : RpcAsyncClient} (overload : Overload)
    (valid : client.invalid = false) :
    client.issued < (client.asyncCall overload).issued ∧
      ((client.asyncCall overload).calls client.issued).phase =
        if (client.asyncCall overload).chain.isEmpty then .register
        else .chain (client.asyncCall overload).chain := by
  unfold RpcAsyncClient.asyncCall
  rw [valid]
  exact ⟨Nat.lt_succ_self _, congrArg CallRecord.phase (calls_setCall ..)⟩

theorem connectNode_cases (s : LinkedClient) (node : Node) :
    ∃ loops new ring, (∀ ep ∈ new, ep.tcpClient.connection = some true) ∧
      s.connectNode node =
        { s with loops := loops, endpoints := s.endpoints ++ new, consistentHash := ring } := by
  unfold connectNode
  dsimp only
  split
  · exact ⟨_, [_], _, List.forall_mem_singleton.mpr rfl, rfl⟩
  · exact ⟨_, [], _, List.forall_mem_nil _, by rw [List.append_nil]⟩

/-- Connecting adds endpoints that are connected, and changes nothing else that a send
depends on. -/
theorem connectNodes_cases (s : LinkedClient) (nodes : List Node) :
    ∃ loops new ring, (∀ ep ∈ new, ep.tcpClient.connection = some true) ∧
      nodes.foldl connectNode s =
        { s with loops := loops, endpoints := s.endpoints ++ new, consistentHash := ring } := by
  induction nodes generalizing s with
  | nil => exact ⟨_, [], _, List.forall_mem_nil _, by rw [List.append_nil]; rfl⟩
  | cons node nodes ih =>
      obtain ⟨loops, new, ring, up, linked⟩ := s.connectNode_cases node
      obtain ⟨loops', new', ring', up', linked'⟩ := ih (s.connectNode node)
      refine ⟨loops', new ++ new', ring', List.forall_mem_append.mpr ⟨up, up'⟩, ?_⟩
      rw [List.foldl_cons, linked', linked]
      dsimp only
      rw [List.append_assoc]

/-- What `connect` leaves as it is. -/
theorem connect_frame (s : LinkedClient) (nodes : List Node) (dial : Dial) :
    (s.connect nodes dial).1.client = s.client ∧
      (s.connect nodes dial).1.disconnecting = s.disconnecting ∧
      (s.connect nodes dial).1.usesRegistry = s.usesRegistry ∧
      (s.connect nodes dial).1.ownsLoopThread = s.ownsLoopThread := by
  obtain ⟨loops, new, ring, _, linked⟩ := s.connectNodes_cases nodes
  unfold connect connectViaRegistry connectDirect
  rw [linked]
  dsimp only
  repeat' split
  all_goals exact ⟨rfl, rfl, rfl, rfl⟩

theorem asyncCall_runs (s : LinkedClient) (alive : s.client.destroyed = false) (call : Outgoing) :
    ∃ events, run? RpcAsyncClient.step s.client events = some (s.asyncCall call).client := by
  have called : s.client.step (.asyncCall call.overload) =
      some (s.client.asyncCall call.overload) := by
    rw [RpcAsyncClient.step, alive]
    rfl
  unfold LinkedClient.asyncCall
  dsimp only
  split
  · exact ⟨[_], run?_cons_eq_some.mpr ⟨_, called, rfl⟩⟩
  · next valid =>
      obtain ⟨made, phase⟩ := asyncCall_entered call.overload (Bool.eq_false_iff.mpr valid)
      obtain ⟨chain, passed⟩ := @runChain_runs _ _ call.verdicts _ made phase
      have reached := run?_cons_eq_some.mpr ⟨_, called, passed⟩
      split
      · next registered =>
          obtain ⟨cb, calls, record, _, ran⟩ := runChain_eq call.verdicts
            (s.client.asyncCall call.overload).chain (s.client.asyncCall call.overload)
            s.client.issued
          obtain ⟨events, sent⟩ := @doCall_runs { s with client := entered s.client call }
            s.client.issued (by rw [entered, ran]; exact made) registered call
          exact ⟨_, run?_append reached sent⟩
      · exact ⟨_, reached⟩

/-- A step leaves the client as a run of the client model leaves it. -/
theorem step_runs_client (wired : s.Wired) {event : Event} (taken : s.step event = some next) :
    ∃ events, run? RpcAsyncClient.step s.client events = some next.client := by
  cases event with
  | connect nodes dial =>
      cases taken
      exact ⟨[], congrArg some (s.connect_frame nodes dial).1.symm⟩
  | disconnect =>
      cases taken
      exact ⟨[], rfl⟩
  | asyncCall call =>
      cases taken
      exact s.asyncCall_runs wired.alive call
  | resume c =>
      obtain ⟨client, resumed, rfl⟩ := Option.map_eq_some_iff.mp taken
      exact ⟨[.resume c], run?_cons_eq_some.mpr ⟨_, resumed, rfl⟩⟩
  | packet packet now =>
      rw [LinkedClient.step] at taken
      split at taken
      · next kind =>
          cases taken
          exact ⟨_, handled_runs kind now⟩
      · cases taken
        exact ⟨[], rfl⟩
  | timer id reqId now =>
      obtain ⟨armed, expired⟩ := Option.ite_none_right_eq_some.mp taken
      cases expired
      have counted : 0 < s.loops.armed reqId :=
        List.count_pos_iff.mpr (List.mem_map.mpr ⟨_, armed, rfl⟩)
      have known : reqId ∈ s.client.timers :=
        List.count_pos_iff.mp (Nat.lt_of_lt_of_le counted (wired.armed reqId))
      have due : s.client.step (.timer reqId now) =
          some ({ s.client with timers := s.client.timers.erase reqId }.handle
            (.timeout reqId) now) := by
        rw [RpcAsyncClient.step, if_pos known, RpcAsyncClient.handleTimeout]
        exact congrArg some (if_neg (Bool.eq_false_iff.mp wired.alive))
      exact ⟨[.timer reqId now, .settle 0], run?_cons_eq_some.mpr ⟨_, due, rfl⟩⟩
  | connection endpoint connection =>
      cases taken
      cases endpoint with
      | none => exact ⟨[], rfl⟩
      | some i => exact ⟨[], rfl⟩

end Refinement

end LinkedClient

end RpcFramework.Client
