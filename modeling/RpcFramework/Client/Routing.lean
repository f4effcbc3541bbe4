import RpcFramework.Client.Wiring
import RpcFramework.LoadBalance.DefaultHash

/-!
# Which endpoint a call goes to

A client in the registry mode keeps its endpoints in a list and, under the policy
of consistent hashing, their addresses on a ring.  `connect` adds to both,
`disconnect` empties both, and `setLBPolicy` builds the ring from the list.  The ring
names the addresses of the list at any time, also after calls in any order, so a call
never falls back to the round robin.  Two clients with the same addresses send a call
to the same one.  A `disconnect` makes every later send fail, so what is sent is sent by
clients that were never disconnected.
-/

namespace RpcFramework.ConsistentHash

variable {hashFunc : Bytes → UInt32} {virtualNodes : Nat} {members : Finset Bytes}
variable {ch : ConsistentHash}

/-- A larger family has fewer private points. -/
theorem Serves.mono {Allowed Larger : Bytes → Prop}
    (serves : Serves hashFunc virtualNodes Allowed members ch)
    (wider : ∀ node, Allowed node → Larger node) :
    Serves hashFunc virtualNodes Larger members ch where
  toConsistent := serves.toConsistent
  hash := serves.hash
  count := serves.count
  present := serves.present
  allowed node member := wider node (serves.allowed node member)
  held node member point listed alone :=
    serves.held node member point listed fun other allowed => alone other (wider other allowed)

/-- A ring to which the members have been added, each of them at least once: the points of
the members are on it, and those that two of them share belong to one of the two. -/
structure Covers (hashFunc : Bytes → UInt32) (virtualNodes : Nat) (members : Finset Bytes)
    (ch : ConsistentHash) : Prop
    extends Serves hashFunc virtualNodes (· ∈ members) members ch where
  covered : ∀ node ∈ members, ∀ point ∈ virtualPoints hashFunc virtualNodes node,
    ∃ owner, (point, owner) ∈ ch.ring

theorem new_covers : Covers hashFunc virtualNodes ∅ (new hashFunc virtualNodes) where
  toServes := new_serves hashFunc virtualNodes _
  covered node member := absurd member (Finset.notMem_empty node)

theorem Covers.addNode (covers : Covers hashFunc virtualNodes members ch) (node : Bytes) :
    Covers hashFunc virtualNodes (insert node members) (ch.addNode node) where
  toServes := (covers.toServes.mono fun _ => Finset.mem_insert_of_mem).addNode
    (Finset.mem_insert_self node members)
  covered other member point listed := by
    simp only [mem_ring_addNode node covers.toConsistent, covers.toServes.points]
    by_cases shared : point ∈ virtualPoints hashFunc virtualNodes node
    · exact ⟨node, Or.inl ⟨rfl, shared⟩⟩
    · rcases Finset.mem_insert.mp member with rfl | before
      · exact absurd listed shared
      · obtain ⟨owner, onRing⟩ := covers.covered other before point listed
        exact ⟨owner, Or.inr ⟨onRing, shared⟩⟩

theorem Covers.addNodes (covers : Covers hashFunc virtualNodes members ch) (nodes : List Bytes) :
    Covers hashFunc virtualNodes (members ∪ nodes.toFinset)
      (nodes.foldl ConsistentHash.addNode ch) := by
  induction nodes generalizing ch members with
  | nil => simpa using covers
  | cons node nodes ih =>
      have added := ih (covers.addNode node)
      have same : insert node members ∪ nodes.toFinset =
          members ∪ (node :: nodes).toFinset := by
        ext other
        simp only [Finset.mem_union, Finset.mem_insert, List.mem_toFinset, List.mem_cons]
        tauto
      rw [same] at added
      exact added

/-- When all members have been removed, the ring is as new. -/
theorem Covers.removeNodes (covers : Covers hashFunc virtualNodes members ch)
    {nodes : List Bytes} (all : members ⊆ nodes.toFinset) :
    Covers hashFunc virtualNodes ∅ (nodes.foldl ConsistentHash.removeNode ch) := by
  have removed : Serves hashFunc virtualNodes (· ∈ members)
      ((nodes.map .removeNode).foldl member members) (ch.run (nodes.map .removeNode)) :=
    covers.toServes.run (by simp)
  have nobody : (nodes.map Update.removeNode).foldl member members = ∅ := by
    refine Finset.eq_empty_of_forall_notMem fun node left => ?_
    obtain ⟨unlisted, present⟩ := mem_foldl_removeNode.mp left
    exact unlisted (List.mem_toFinset.mp (all present))
  have same : ch.run (nodes.map .removeNode) = nodes.foldl ConsistentHash.removeNode ch :=
    List.foldl_map
  rw [nobody, same] at removed
  exact ⟨⟨removed.toConsistent, removed.hash, removed.count, removed.present, by simp, by simp⟩,
    by simp⟩

/-- A lookup answers with a member, if there is one and it has a point. -/
theorem Covers.getNode_mem (covers : Covers hashFunc virtualNodes members ch)
    (positive : 1 ≤ virtualNodes) (someone : members.Nonempty) (key : Bytes) :
    ch.getNode key ∈ members := by
  obtain ⟨node, member⟩ := someone
  rcases covers.toServes.getNode_cases key with ⟨nothing, _⟩ | ⟨entry, _, owner, found⟩
  · obtain ⟨owner, onRing⟩ := covers.covered node member _
      (mem_virtualPoints.mpr ⟨0, positive, rfl⟩)
    have impossible : (_, owner) ∈ ch.ring.entries := onRing
    rw [nothing] at impossible
    cases impossible
  · rw [owner]
    exact found

/-- No two members share a point. -/
def Apart (hashFunc : Bytes → UInt32) (virtualNodes : Nat) (members : Finset Bytes) : Prop :=
  ∀ node ∈ members, ∀ other ∈ members, ∀ point ∈ virtualPoints hashFunc virtualNodes node,
    point ∈ virtualPoints hashFunc virtualNodes other → other = node

-- the points are those of a list, not all the words there are
instance instDecidableApart (hashFunc : Bytes → UInt32) (virtualNodes : Nat)
    (members : Finset Bytes) : Decidable (Apart hashFunc virtualNodes members) :=
  @Finset.decidableDforallFinset _ _ _ fun _ _ =>
    @Finset.decidableDforallFinset _ _ _ fun _ _ => List.decidableBAll _ _

theorem Covers.mem_ring_iff (covers : Covers hashFunc virtualNodes members ch)
    (apart : Apart hashFunc virtualNodes members) {entry : UInt32 × Bytes} :
    entry ∈ ch.ring ↔
      entry.2 ∈ members ∧ entry.1 ∈ virtualPoints hashFunc virtualNodes entry.2 := by
  constructor
  · intro onRing
    obtain ⟨present, point⟩ := covers.owned entry onRing
    exact ⟨(covers.present entry.2).mp present, covers.toServes.points entry.2 ▸ point⟩
  · rintro ⟨member, listed⟩
    exact covers.held entry.2 member entry.1 listed fun other also shared =>
      apart entry.2 member other also entry.1 listed shared

/-- How the members came to the ring does not matter. -/
theorem Covers.getNode_congr {other : ConsistentHash}
    (covers : Covers hashFunc virtualNodes members ch)
    (also : Covers hashFunc virtualNodes members other)
    (apart : Apart hashFunc virtualNodes members) (key : Bytes) :
    ch.getNode key = other.getNode key := by
  have same : ch.ring.successor (hashFunc key) = other.ring.successor (hashFunc key) := by
    ext entry
    simp only [SortedMap.successor_eq_some_iff, covers.mem_ring_iff apart, also.mem_ring_iff apart]
  rw [getNode_eq, getNode_eq, covers.hash, also.hash, same]

end RpcFramework.ConsistentHash

namespace RpcFramework.Client.LinkedClient

open Codec StepRun ConsistentHash

/-- The addresses of the endpoints. -/
def endpointNames (s : LinkedClient) : List Bytes :=
  s.endpoints.map fun ep => endpointName ep.host ep.port

def setLBPolicy (s : LinkedClient) (char : PlainChar) (p : LBPolicy) (virtualNodes : Nat) :
    LinkedClient :=
  { s with
    lbPolicy := p
    consistentHash :=
      match p with
      | .consistentHash =>
          some (s.endpointNames.foldl ConsistentHash.addNode (.new (defaultHash char) virtualNodes))
      | .rr => none }

/-- The steps of a client whose policy may be changed at any time. -/
inductive RoutingEvent where
  | client (event : Event)
  | setLBPolicy (p : LBPolicy) (virtualNodes : Nat)

def routingStep (char : PlainChar) (s : LinkedClient) : RoutingEvent → Option LinkedClient
  | .client event => s.step event
  | .setLBPolicy p virtualNodes => some (s.setLBPolicy char p virtualNodes)

/-- The ring is there under the policy of consistent hashing, and the addresses of the
endpoints are what it has been filled with. -/
structure Routed (char : PlainChar) (s : LinkedClient) : Prop where
  turns : s.lbPolicy = .rr → s.consistentHash = none
  hashes : s.lbPolicy = .consistentHash → ∃ ring, s.consistentHash = some ring ∧
    1 ≤ ring.virtualNodes ∧
    Covers (defaultHash char) ring.virtualNodes s.endpointNames.toFinset ring

section Steps

variable {char : PlainChar} {s next : LinkedClient}

/-- Nothing that a call is routed by has changed. -/
structure SameRoute (next s : LinkedClient) : Prop where
  lbPolicy : next.lbPolicy = s.lbPolicy
  consistentHash : next.consistentHash = s.consistentHash
  endpointNames : next.endpointNames = s.endpointNames

theorem Routed.of_same (routed : s.Routed char) (same : SameRoute next s) : next.Routed char := by
  constructor
  · rw [same.lbPolicy, same.consistentHash]
    exact routed.turns
  · rw [same.lbPolicy, same.consistentHash, same.endpointNames]
    exact routed.hashes

theorem virtualNodes_addNode (ring : ConsistentHash) (node : Bytes) :
    (ring.addNode node).virtualNodes = ring.virtualNodes := by
  rw [addNode_eq]
  exact (ring.removeNode_config node).2

theorem Routed.connectNode (routed : s.Routed char) (node : Node) :
    (s.connectNode node).Routed char := by
  unfold LinkedClient.connectNode
  dsimp only
  split
  · constructor
    · intro turns
      have turns : s.lbPolicy = .rr := turns
      simp [updateRing, turns, routed.turns turns]
    · intro hashes
      have hashes : s.lbPolicy = .consistentHash := hashes
      obtain ⟨ring, there, positive, covers⟩ := routed.hashes hashes
      have added := covers.addNode (endpointName node.host node.port)
      refine ⟨ring.addNode (endpointName node.host node.port), ?_, ?_, ?_⟩
      · simp [updateRing, hashes, there]
      · rw [virtualNodes_addNode]
        exact positive
      · rw [virtualNodes_addNode]
        convert added using 1
        ext name
        simp [endpointNames]
  · exact routed.of_same ⟨rfl, rfl, rfl⟩

theorem Routed.connectNodes (routed : s.Routed char) (nodes : List Node) :
    (nodes.foldl LinkedClient.connectNode s).Routed char := by
  induction nodes generalizing s with
  | nil => exact routed
  | cons node nodes ih => exact ih (routed.connectNode node)

theorem sameRoute_connectDirect (dial : Dial) : SameRoute (s.connectDirect dial).1 s := by
  unfold connectDirect
  dsimp only
  split
  · cases dial with
    | up | refused | timeout => exact ⟨rfl, rfl, rfl⟩
  · exact ⟨rfl, rfl, rfl⟩

theorem Routed.connect (routed : s.Routed char) (nodes : List Node) (dial : Dial) :
    (s.connect nodes dial).1.Routed char := by
  unfold LinkedClient.connect
  split
  · exact routed
  · split
    · exact routed
    · split
      · unfold connectViaRegistry
        dsimp only
        split
        · exact routed.connectNodes nodes
        · exact (routed.connectNodes nodes).of_same ⟨rfl, rfl, rfl⟩
      · exact routed.of_same (sameRoute_connectDirect dial)

/-- The ring when the endpoints have been taken off it. -/
theorem consistentHash_disconnect (s : LinkedClient) :
    s.disconnect.consistentHash =
      s.updateRing fun ring => s.endpointNames.foldl ConsistentHash.removeNode ring := by
  have emptied : ∀ (endpoints : List Endpoint) (t : LinkedClient),
      (endpoints.foldl (fun t ep => { t with
        consistentHash := t.updateRing fun ring =>
          ring.removeNode (endpointName ep.host ep.port) }) t).consistentHash =
        t.updateRing fun ring =>
          (endpoints.map fun ep => endpointName ep.host ep.port).foldl
            ConsistentHash.removeNode ring := by
    intro endpoints
    induction endpoints with
    | nil =>
        intro t
        unfold updateRing
        split <;> simp
    | cons ep endpoints ih =>
        intro t
        rw [List.foldl_cons, ih]
        unfold updateRing
        dsimp only
        split <;> simp [Function.comp_def]
  exact emptied s.endpoints s

theorem Routed.disconnect (routed : s.Routed char) : s.disconnect.Routed char := by
  constructor
  · intro turns
    have turns : s.lbPolicy = .rr := turns
    rw [consistentHash_disconnect]
    simp [updateRing, turns, routed.turns turns]
  · intro hashes
    have hashes : s.lbPolicy = .consistentHash := hashes
    obtain ⟨ring, there, positive, covers⟩ := routed.hashes hashes
    have empty := covers.removeNodes (subset_refl _)
    have count := empty.count
    refine ⟨s.endpointNames.foldl ConsistentHash.removeNode ring, ?_, ?_, ?_⟩
    · rw [consistentHash_disconnect]
      simp [updateRing, hashes, there]
    · rw [count]
      exact positive
    · rw [count]
      exact empty

theorem endpointNames_modify (endpoints : List Endpoint) (i : Nat) (connection : Option Bool) :
    (endpoints.modify i fun ep =>
      { ep with tcpClient := { ep.tcpClient with connection := connection } }).map
        (fun ep => endpointName ep.host ep.port) =
      endpoints.map fun ep => endpointName ep.host ep.port := by
  induction endpoints generalizing i with
  | nil => simp
  | cons ep endpoints ih =>
      cases i with
      | zero => simp
      | succ i => simp [ih]

theorem sameRoute_setConnection (endpoint : Option Nat) (connection : Option Bool) :
    SameRoute (s.setConnection endpoint connection) s := by
  cases endpoint with
  | none => exact ⟨rfl, rfl, rfl⟩
  | some i => exact ⟨rfl, rfl, endpointNames_modify s.endpoints i connection⟩

theorem Routed.step (routed : s.Routed char) {event : Event} (taken : s.step event = some next) :
    next.Routed char := by
  cases relinks_of_step taken with
  | connect nodes dial => exact routed.connect nodes dial
  | disconnect => exact routed.disconnect
  | connection endpoint connection =>
      exact routed.of_same (sameRoute_setConnection endpoint connection)
  | kept => exact routed.of_same ⟨rfl, rfl, rfl⟩

/-- A ring has at least one point for every node. -/
def RoutingEvent.Placing : RoutingEvent → Prop
  | .setLBPolicy .consistentHash virtualNodes => 1 ≤ virtualNodes
  | _ => True

theorem Routed.routingStep (routed : s.Routed char) {event : RoutingEvent}
    (placing : event.Placing) (taken : s.routingStep char event = some next) :
    next.Routed char := by
  cases event with
  | client event => exact routed.step taken
  | setLBPolicy p virtualNodes =>
      cases taken
      cases p with
      | rr => exact ⟨fun _ => rfl, fun impossible => absurd impossible LBPolicy.noConfusion⟩
      | consistentHash =>
          have covers : Covers (defaultHash char) virtualNodes (∅ ∪ s.endpointNames.toFinset) _ :=
            new_covers.addNodes s.endpointNames
          rw [Finset.empty_union] at covers
          refine ⟨fun impossible => absurd impossible LBPolicy.noConfusion, fun _ =>
            ⟨_, rfl, ?_, ?_⟩⟩
          · rw [covers.count]
            exact placing
          · rw [covers.count]
            exact covers

variable {usesRegistry validHost : Bool} {chain : List Interceptor}
variable {circuitBreaker : Option CircuitBreaker} {events : List RoutingEvent}

theorem routed_of_run (placing : ∀ event ∈ events, event.Placing)
    (reached : run? (routingStep char)
      (owning usesRegistry validHost chain circuitBreaker .rr none) events = some s) :
    s.Routed char := by
  have start : (owning usesRegistry validHost chain circuitBreaker .rr none).Routed char :=
    ⟨fun _ => rfl, fun impossible => absurd impossible LBPolicy.noConfusion⟩
  exact run?_invariant_along (fun _ _ _ routed placing taken => routed.routingStep placing taken)
    start (Along.of_forall placing _) reached

/-- The endpoint that the ring names for a key is found. -/
theorem Routed.getTcpClient (routed : s.Routed char) (hashes : s.lbPolicy = .consistentHash)
    {hashKey : Bytes} (named : hashKey ≠ []) (linked : s.endpoints ≠ []) :
    ∃ ring ep, s.consistentHash = some ring ∧ ep ∈ s.endpoints ∧
      endpointName ep.host ep.port = ring.getNode hashKey ∧
      s.getTcpClient hashKey = (s, some ep.tcpClient) := by
  obtain ⟨ring, there, positive, covers⟩ := routed.hashes hashes
  have someone : s.endpointNames.toFinset.Nonempty := by
    rw [List.toFinset_nonempty_iff]
    simpa [endpointNames] using linked
  have member := List.mem_toFinset.mp (covers.getNode_mem positive someone hashKey)
  obtain ⟨ep, listed, name⟩ := List.mem_map.mp member
  have hashed : s.hashedEndpoint hashKey = s.endpoints.find? fun ep =>
      endpointName ep.host ep.port = ring.getNode hashKey := by
    simp [hashedEndpoint, hashes, there, named]
  cases found : s.endpoints.find? fun ep =>
      endpointName ep.host ep.port = ring.getNode hashKey with
  | none => exact absurd name (by simpa using List.find?_eq_none.mp found ep listed)
  | some chosen =>
      have is := List.find?_some found
      refine ⟨ring, chosen, there, List.mem_of_find?_eq_some found, of_decide_eq_true is, ?_⟩
      rw [LinkedClient.getTcpClient, hashed, found]
      simp [linked]

/-- The link of an endpoint that has a connection to hand a packet to. -/
def openLink (ep : Endpoint) : Option TcpLink :=
  if ep.tcpClient.connection.isSome then some ep.tcpClient else none

/-- A packet is handed to the endpoint that the ring names, or to none. -/
theorem Routed.sendRequest (routed : s.Routed char) (hashes : s.lbPolicy = .consistentHash)
    (kept : s.disconnecting = false) {hashKey : Bytes} (named : hashKey ≠ [])
    (linked : s.endpoints ≠ []) :
    ∃ ring ep, s.consistentHash = some ring ∧ ep ∈ s.endpoints ∧
      endpointName ep.host ep.port = ring.getNode hashKey ∧
      s.sendRequest hashKey = (s, openLink ep) := by
  obtain ⟨ring, ep, there, listed, name, chosen⟩ := routed.getTcpClient hashes named linked
  refine ⟨ring, ep, there, listed, name, ?_⟩
  simp only [LinkedClient.sendRequest, chosen, kept, Bool.false_eq_true, if_false,
    Option.filter_some]
  rfl

/-- Under consistent hashing a call with a key is sent to the endpoint that the ring names,
whatever connects, policy changes and calls came before, as long as there was no
`disconnect`; when the endpoint has lost its connection the call times out at once.  It
never takes a turn of the round robin. -/
theorem hashed_call_follows_ring (placing : ∀ event ∈ events, event.Placing)
    (reached : run? (routingStep char)
      (owning usesRegistry validHost chain circuitBreaker .rr none) events = some s)
    (hashes : s.lbPolicy = .consistentHash) (kept : s.disconnecting = false) {hashKey : Bytes}
    (named : hashKey ≠ []) (linked : s.endpoints ≠ []) :
    ∃ ring ep, s.consistentHash = some ring ∧ ep ∈ s.endpoints ∧
      endpointName ep.host ep.port = ring.getNode hashKey ∧
      s.sendRequest hashKey = (s, openLink ep) :=
  (routed_of_run placing reached).sendRequest hashes kept named linked

/-- The number of the points that a node has on the ring. -/
def virtualNodes (s : LinkedClient) : Nat :=
  (s.consistentHash.map ConsistentHash.virtualNodes).getD 0

/-- Two clients that hash over the same addresses send a call with the same key to the same
address, whatever connects, policy changes and calls came before in each of them, if no two of
the addresses share a point and neither was disconnected. -/
theorem hashed_calls_agree {t : LinkedClient} {otherEvents : List RoutingEvent}
    {otherRegistry otherHost : Bool} {otherChain : List Interceptor}
    {otherBreaker : Option CircuitBreaker}
    (placing : ∀ event ∈ events, event.Placing)
    (reached : run? (routingStep char)
      (owning usesRegistry validHost chain circuitBreaker .rr none) events = some s)
    (alsoPlacing : ∀ event ∈ otherEvents, event.Placing)
    (alsoReached : run? (routingStep char)
      (owning otherRegistry otherHost otherChain otherBreaker .rr none) otherEvents = some t)
    (hashes : s.lbPolicy = .consistentHash) (alsoHashes : t.lbPolicy = .consistentHash)
    (kept : s.disconnecting = false) (alsoKept : t.disconnecting = false)
    (sameCount : t.virtualNodes = s.virtualNodes)
    (sameNames : t.endpointNames.toFinset = s.endpointNames.toFinset)
    (apart : Apart (defaultHash char) s.virtualNodes s.endpointNames.toFinset)
    {hashKey : Bytes} (named : hashKey ≠ []) (linked : s.endpoints ≠ []) :
    ∃ ep ∈ s.endpoints, ∃ other ∈ t.endpoints,
      endpointName other.host other.port = endpointName ep.host ep.port ∧
      s.sendRequest hashKey = (s, openLink ep) ∧ t.sendRequest hashKey = (t, openLink other) := by
  have routed := routed_of_run placing reached
  have alsoRouted := routed_of_run alsoPlacing alsoReached
  have alsoLinked : t.endpoints ≠ [] := by
    intro none
    have nobody : s.endpointNames.toFinset = ∅ := by
      rw [← sameNames, endpointNames, none]
      rfl
    rw [List.toFinset_eq_empty_iff, endpointNames, List.map_eq_nil_iff] at nobody
    exact linked nobody
  obtain ⟨ring, ep, there, listed, name, sent⟩ := routed.sendRequest hashes kept named linked
  obtain ⟨otherRing, other, otherThere, otherListed, otherName, otherSent⟩ :=
    alsoRouted.sendRequest alsoHashes alsoKept named alsoLinked
  refine ⟨ep, listed, other, otherListed, ?_, sent, otherSent⟩
  have covers : Covers (defaultHash char) s.virtualNodes s.endpointNames.toFinset ring := by
    obtain ⟨same, there', _, covers⟩ := routed.hashes hashes
    cases there.symm.trans there'
    rw [virtualNodes, there]
    exact covers
  have alsoCovers : Covers (defaultHash char) s.virtualNodes s.endpointNames.toFinset otherRing := by
    obtain ⟨same, there', _, covers⟩ := alsoRouted.hashes alsoHashes
    cases otherThere.symm.trans there'
    rw [← sameCount, ← sameNames, virtualNodes, otherThere]
    exact covers
  rw [name, otherName, covers.getNode_congr alsoCovers apart]

/-! ### Two clients of one service -/

def firstNode : Node := ⟨[0x61], 1, true, .up⟩

def secondNode : Node := ⟨[0x62], 2, true, .up⟩

/-- A client that hashes from the start. -/
def hashFirst : List RoutingEvent :=
  [.setLBPolicy .consistentHash 1, .client (.connect [firstNode, secondNode] .up)]

/-- A client that finds the nodes in another order, one of them twice, and hashes later. -/
def hashLater : List RoutingEvent :=
  [.client (.connect [secondNode] .up), .client (.connect [firstNode, secondNode] .up),
    .setLBPolicy .consistentHash 1]

/-- Its interceptor is that of a breaker. -/
def guardedRegistry : LinkedClient :=
  owning true false [.circuitBreaker] (some (.new 5 30)) .rr none

def afterFirst : LinkedClient :=
  (run? (routingStep .signed) (owning true true [] none .rr none) hashFirst).getD guardedRegistry

def afterLater : LinkedClient :=
  (run? (routingStep .signed) guardedRegistry hashLater).getD guardedRegistry

theorem reached_hashFirst :
    run? (routingStep .signed) (owning true true [] none .rr none) hashFirst = some afterFirst :=
  run?_eq_some_getD (by decide +kernel)

theorem reached_hashLater :
    run? (routingStep .signed) guardedRegistry hashLater = some afterLater :=
  run?_eq_some_getD (by decide +kernel)

theorem hashed_call_follows_ring_hashFirst :
    (afterFirst.sendRequest [0x6d]).2.isSome = true ∧
      ∃ ring ep, afterFirst.consistentHash = some ring ∧ ep ∈ afterFirst.endpoints ∧
        endpointName ep.host ep.port = ring.getNode [0x6d] ∧
        afterFirst.sendRequest [0x6d] = (afterFirst, openLink ep) :=
  ⟨by decide +kernel, hashed_call_follows_ring (by simp [hashFirst, RoutingEvent.Placing])
    reached_hashFirst (by decide +kernel) (by decide +kernel) (by decide) (by decide +kernel)⟩

theorem hashed_calls_agree_hashLater :
    (afterFirst.sendRequest [0x6d]).2.isSome = true ∧
      (afterLater.sendRequest [0x6d]).2.isSome = true ∧
      ∃ ep ∈ afterFirst.endpoints, ∃ other ∈ afterLater.endpoints,
        endpointName other.host other.port = endpointName ep.host ep.port ∧
        afterFirst.sendRequest [0x6d] = (afterFirst, openLink ep) ∧
        afterLater.sendRequest [0x6d] = (afterLater, openLink other) :=
  ⟨by decide +kernel, by decide +kernel,
    hashed_calls_agree (by simp [hashFirst, RoutingEvent.Placing]) reached_hashFirst
      (by simp [hashLater, RoutingEvent.Placing]) reached_hashLater (by decide +kernel)
      (by decide +kernel) (by decide +kernel) (by decide +kernel) (by decide +kernel)
      (by decide +kernel) (by decide +kernel) (by decide) (by decide +kernel)⟩

end Steps

end RpcFramework.Client.LinkedClient
