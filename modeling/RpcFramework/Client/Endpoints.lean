import Mathlib.Data.Finset.Basic
import RpcFramework.Client.Handlers
import RpcFramework.LoadBalance.ConsistentHash

/-!
# Connections and loops of the client

`RpcAsyncClient` with what it sends through: its event loops, the `TcpClient` of the
direct and the pooled mode and the endpoints of the registry mode.  A call arms its
timer in a loop that is chosen when the call is made; `connect` starts loops and
`disconnect` stops them.  Here a call up to its send, a handler and the operations
`connect` and `disconnect` are one step each; what a call does to the tables and the
breaker is taken from the client model.
-/

namespace RpcFramework.Client

open Codec

/-! ## Event loops -/

abbrev LoopId := Nat

/-- The loops that were started so far, those that have not been stopped, and the
timers of requests in them.  The destructor of a loop clears its timers. -/
structure EventLoops where
  started : Nat
  running : Finset LoopId
  timers : List (LoopId × UInt64)
  fresh : ∀ id ∈ running, id < started
  held : ∀ timer ∈ timers, timer.1 ∈ running

namespace EventLoops

def none : EventLoops := ⟨0, ∅, [], by simp, by simp⟩

/-- `EventLoopThread::startLoop`; the id of the new loop is `started`. -/
def startLoop (l : EventLoops) : EventLoops where
  started := l.started + 1
  running := insert l.started l.running
  timers := l.timers
  fresh := by
    intro id member
    rcases Finset.mem_insert.mp member with rfl | member
    · exact Nat.lt_succ_self _
    · exact Nat.lt_succ_of_lt (l.fresh id member)
  held timer member := Finset.mem_insert_of_mem (l.held timer member)

/-- `EventLoopThread::stop`: the loop ends and is destroyed. -/
def stop (l : EventLoops) (id : LoopId) : EventLoops where
  started := l.started
  running := l.running.erase id
  timers := l.timers.filter fun timer => timer.1 ≠ id
  fresh other member := l.fresh other (Finset.mem_of_mem_erase member)
  held timer member := by
    obtain ⟨armed, other⟩ := List.mem_filter.mp member
    exact Finset.mem_erase.mpr ⟨of_decide_eq_true other, l.held timer armed⟩

def stopAll (l : EventLoops) (ids : List LoopId) : EventLoops := ids.foldl stop l

def runAfter (l : EventLoops) (id : LoopId) (reqId : UInt64) : EventLoops :=
  if alive : id ∈ l.running then
    { l with
      timers := (id, reqId) :: l.timers
      held := List.forall_mem_cons.mpr ⟨alive, l.held⟩ }
  else l

/-- A timer comes due. -/
def expire (l : EventLoops) (timer : LoopId × UInt64) : EventLoops :=
  { l with
    timers := l.timers.erase timer
    held := fun other member => l.held other (List.mem_of_mem_erase member) }

/-- The timers that have not come due for a request id. -/
def armed (l : EventLoops) (reqId : UInt64) : Nat := (l.timers.map Prod.snd).count reqId

end EventLoops

/-! ## The client with its connections -/

/-- A `TcpClient`: its loop, and the `connected()` of its connection if there is one. -/
structure TcpLink where
  loop : LoopId
  connection : Option Bool
  deriving DecidableEq

structure Endpoint where
  host : Bytes
  port : UInt16
  tcpClient : TcpLink
  deriving DecidableEq

/-- `host + ":" + std::to_string(port)`. -/
def endpointName (host : Bytes) (port : UInt16) : Bytes :=
  host ++ 0x3a :: Decimal.decimal port.toNat

inductive LBPolicy where
  | rr
  | consistentHash
  deriving DecidableEq, Repr

/-- How an attempt to connect ends. -/
inductive Dial where
  | up
  | refused
  | timeout
  deriving DecidableEq, Repr

/-- A node that the registry returned, whether its address is valid, and how the
attempt to connect to it ends. -/
structure Node where
  host : Bytes
  port : UInt16
  valid : Bool
  dial : Dial

/-- `validHost` says whether `inet_pton` accepts `host_`. -/
structure LinkedClient where
  client : RpcAsyncClient
  usesRegistry : Bool
  ownsLoopThread : Bool
  validHost : Bool
  loops : EventLoops
  loop : Option LoopId
  loopThread : Option LoopId
  tcpClient : Option TcpLink
  endpoints : List Endpoint
  lbPolicy : LBPolicy
  consistentHash : Option ConsistentHash
  rrIndex : UInt64
  connected : Bool
  disconnecting : Bool

namespace LinkedClient

/-- The constructors of the direct and of the registry mode, before the first call. -/
def owning (usesRegistry validHost : Bool) (chain : List Interceptor)
    (circuitBreaker : Option CircuitBreaker) (lbPolicy : LBPolicy)
    (consistentHash : Option ConsistentHash) : LinkedClient where
  client := .new false chain circuitBreaker
  usesRegistry := usesRegistry
  ownsLoopThread := true
  validHost := validHost
  loops := .none
  loop := none
  loopThread := none
  tcpClient := none
  endpoints := []
  lbPolicy := lbPolicy
  consistentHash := consistentHash
  rrIndex := 0
  connected := false
  disconnecting := false

/-- The constructor of the pooled mode.  `tcpClient` is the connection of the
`TcpClient` that is passed, if one is; `claimed` is the result of `tryClaim`. -/
def pooled (tcpClient : Option (Option Bool)) (claimed : Bool) (chain : List Interceptor)
    (circuitBreaker : Option CircuitBreaker) : LinkedClient :=
  let unbound : LinkedClient :=
    { owning false false chain circuitBreaker .rr none with ownsLoopThread := false }
  match tcpClient with
  | none => unbound
  | some connection =>
      if claimed then
        { unbound with
          loops := EventLoops.none.startLoop
          loop := some 0
          tcpClient := some ⟨0, connection⟩
          connected := connection == some true }
      else { unbound with client := .new true chain circuitBreaker }

/-! ### Connecting -/

/-- The loop thread of an earlier `connectDirect` is destroyed when it is replaced. -/
def connectDirect (s : LinkedClient) (dial : Dial) : LinkedClient × Bool :=
  let new := s.loops.started
  let loops := s.loops.startLoop.stopAll s.loopThread.toList
  if s.validHost then
    match dial with
    | .up =>
        ({ s with
          loops := loops
          loop := some new
          loopThread := some new
          tcpClient := some ⟨new, some true⟩
          connected := true }, true)
    | .refused =>
        ({ s with
          loops := loops.stop new
          loop := none
          loopThread := none
          tcpClient := none
          connected := false }, false)
    | .timeout =>
        ({ s with
          loops := loops.stop new
          loop := none
          loopThread := none
          tcpClient := none }, false)
  else
    ({ s with loops := loops.stop new, loop := none, loopThread := none }, false)

/-- The ring that the endpoints are entered in, if the policy uses one. -/
def updateRing (s : LinkedClient) (update : ConsistentHash → ConsistentHash) :
    Option ConsistentHash :=
  if s.lbPolicy = .consistentHash then s.consistentHash.map update else s.consistentHash

/-- One round of the loop in `connectViaRegistry`. -/
def connectNode (s : LinkedClient) (node : Node) : LinkedClient :=
  let new := s.loops.started
  let loops := s.loops.startLoop
  if node.valid ∧ node.dial = .up then
    { s with
      loops := loops
      endpoints := s.endpoints ++ [⟨node.host, node.port, ⟨new, some true⟩⟩]
      consistentHash := s.updateRing fun ring => ring.addNode (endpointName node.host node.port) }
  else { s with loops := loops.stop new }

def connectViaRegistry (s : LinkedClient) (nodes : List Node) : LinkedClient × Bool :=
  let linked := nodes.foldl connectNode s
  if linked.endpoints.length = s.endpoints.length then (linked, false)
  else ({ linked with connected := true }, true)

/-- `nodes` is what `discover` returns in the registry mode, and `dial` how the
attempt ends in the direct mode. -/
def connect (s : LinkedClient) (nodes : List Node) (dial : Dial) : LinkedClient × Bool :=
  if s.client.invalid then (s, false)
  else if !s.ownsLoopThread then (s, s.connected)
  else if s.usesRegistry then s.connectViaRegistry nodes
  else s.connectDirect dial

/-- `disconnecting_` is not reset by any later `connect`. -/
def disconnect (s : LinkedClient) : LinkedClient :=
  let loops := s.loops.stopAll (s.endpoints.map fun ep => ep.tcpClient.loop)
  let ring := s.endpoints.foldl
    (fun s ep => { s with
      consistentHash := s.updateRing fun ring => ring.removeNode (endpointName ep.host ep.port) }) s
  { s with
    disconnecting := true
    consistentHash := ring.consistentHash
    endpoints := []
    tcpClient := none
    loops := if s.ownsLoopThread then loops.stopAll s.loopThread.toList else loops
    loopThread := if s.ownsLoopThread then none else s.loopThread
    connected := false
    loop := none }

/-! ### Calls -/

/-- The loop that a call arms its timer in. -/
def timeoutLoop (s : LinkedClient) : Option LoopId :=
  match s.endpoints with
  | ep :: _ => some ep.tcpClient.loop
  | [] => s.loop

/-- The loop of the timer of a call with the given timeout. -/
def timerLoop (s : LinkedClient) (timeoutMs : Int) : Option LoopId :=
  if 0 < timeoutMs then s.timeoutLoop else none

/-- The loops after the timer has been armed. -/
def armTimer (s : LinkedClient) (reqId : UInt64) (timeoutMs : Int) : EventLoops :=
  match s.timerLoop timeoutMs with
  | some id => s.loops.runAfter id reqId
  | none => s.loops

/-- The endpoint that the ring names for the key. -/
def hashedEndpoint (s : LinkedClient) (hashKey : Bytes) : Option Endpoint :=
  match s.lbPolicy, s.consistentHash with
  | .consistentHash, some ring =>
      if hashKey.isEmpty then none
      else s.endpoints.find? fun ep => endpointName ep.host ep.port = ring.getNode hashKey
  | _, _ => none

def getTcpClient (s : LinkedClient) (hashKey : Bytes) : LinkedClient × Option TcpLink :=
  if s.endpoints.isEmpty then (s, s.tcpClient)
  else
    match s.hashedEndpoint hashKey with
    | some ep => (s, some ep.tcpClient)
    | none =>
        ({ s with rrIndex := s.rrIndex + 1 },
          s.endpoints[s.rrIndex.toNat % s.endpoints.length]?.map Endpoint.tcpClient)

/-- The link whose connection the packet is handed to; otherwise the call times out
at once. -/
def sendRequest (s : LinkedClient) (hashKey : Bytes) : LinkedClient × Option TcpLink :=
  let found := s.getTcpClient hashKey
  (found.1,
    if s.disconnecting then none else found.2.filter fun link => link.connection.isSome)

/-- The verdict of an interceptor and the clock readings of a breaker that is asked. -/
structure Verdict where
  passes : Bool
  now : Int
  later : Int

/-- A call: `packet` is the encoded request, empty when the encoding failed, `hashKey`
is the service and the method, and `now` is the clock when the call fails at once. -/
structure Outgoing where
  overload : Overload
  verdicts : Nat → Verdict
  timeoutMs : Int
  packet : Bytes
  hashKey : Bytes
  now : Int

/-- The interceptors of the chain, up to the first that blocks the call. -/
def runChain (c : CallId) (verdicts : Nat → Verdict) :
    List Interceptor → RpcAsyncClient → RpcAsyncClient
  | [], s => s
  | interceptor :: rest, s =>
      let verdict := verdicts rest.length
      let s := s.preHandle c interceptor rest verdict.passes verdict.now verdict.later
      if (s.calls c).phase = .returned then s else runChain c verdicts rest s

/-- What happens to the packet of a call. -/
def deliver (s : LinkedClient) (packet hashKey : Bytes) : LinkedClient × RpcAsyncClient.Sent :=
  if packet.isEmpty then (s, .encodeFailed)
  else
    let sent := s.sendRequest hashKey
    (sent.1, if sent.2.isSome then .sent else .sendFailed)

/-- A call that fails at once runs `handleTimeout` to its end. -/
def failed (client : RpcAsyncClient) (c : CallId) : RpcAsyncClient :=
  if (client.calls c).phase = .failing then client.fail c else client

/-- The common part of both overloads behind the chain. -/
def doCall (s : LinkedClient) (c : CallId) (call : Outgoing) : LinkedClient :=
  let client := (s.client.register c).arm c (s.timerLoop call.timeoutMs).isSome
  let delivered := s.deliver call.packet call.hashKey
  { delivered.1 with
    loops := s.armTimer (s.client.calls c).reqId call.timeoutMs
    client := failed (client.send c delivered.2 call.now) c }

def asyncCall (s : LinkedClient) (call : Outgoing) : LinkedClient :=
  let c := s.client.issued
  let client := s.client.asyncCall call.overload
  if s.client.invalid then { s with client := client }
  else
    let client := runChain c call.verdicts client.chain client
    if (client.calls c).phase = .register then { s with client := client }.doCall c call
    else { s with client := client }

/-! ### Steps -/

/-- A handler from its record on the breaker to its end. -/
def handled (client : RpcAsyncClient) (handler : Handler) (now : Int) : RpcAsyncClient :=
  (client.record handler now).settle handler

/-- A change of the connection of the `TcpClient`, or of that of an endpoint. -/
def setConnection (s : LinkedClient) (endpoint : Option Nat) (connection : Option Bool) :
    LinkedClient :=
  match endpoint with
  | none =>
      { s with
        tcpClient := s.tcpClient.map fun link => { link with connection := connection }
        connected := connection == some true }
  | some i =>
      { s with
        endpoints := s.endpoints.modify i fun ep =>
          { ep with tcpClient := { ep.tcpClient with connection := connection } }
        connected := connection == some true }

inductive Event where
  | connect (nodes : List Node) (dial : Dial)
  | disconnect
  | asyncCall (call : Outgoing)
  | resume (c : CallId)
  | packet (packet : DecodedPacket) (now : Int)
  | timer (id : LoopId) (reqId : UInt64) (now : Int)
  | connection (endpoint : Option Nat) (connection : Option Bool)

/-- One step; a timer can only come due in a loop that runs. -/
def step (s : LinkedClient) : Event → Option LinkedClient
  | .connect nodes dial => some (s.connect nodes dial).1
  | .disconnect => some s.disconnect
  | .asyncCall call => some (s.asyncCall call)
  | .resume c => (s.client.step (.resume c)).map fun client => { s with client := client }
  | .packet packet now =>
      if packet.msgType = .response then
        some { s with client := handled s.client (.response packet) now }
      else some s
  | .timer id reqId now =>
      if (id, reqId) ∈ s.loops.timers then
        some { s with
          loops := s.loops.expire (id, reqId)
          client := handled { s.client with timers := s.client.timers.erase reqId }
            (.timeout reqId) now }
      else none
  | .connection endpoint connection => some (s.setConnection endpoint connection)

end LinkedClient

end RpcFramework.Client
