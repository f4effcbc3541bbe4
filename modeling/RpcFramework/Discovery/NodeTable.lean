import RpcFramework.Discovery.MemoryRegistry
import RpcFramework.Lib.Mealy
import RpcFramework.Protocol.Messages

/-!
# The registry as a node map with expiry

What the registry is for: it remembers the last registration of each node and when
the node was last heard of, until the node is deregistered or not heard of for too
long.  `NodeTable` says this without the two levels of maps and without machine
integers.  The operations of the registry, run one at a time with a clock that does
not go back, are followed by those of the table: `discover` lists the table, the
results tell whether a node is in it, and the notifications carry what `discover`
then returns.
-/

namespace RpcFramework.MemoryRegistry

/-! ## The node map -/

/-- A node as it was registered last, when that was, and when it was last heard of. -/
structure Entry where
  registration : RegistryNode
  registered : UInt64
  seen : UInt64

/-- The node as it is discovered. -/
def Entry.node (entry : Entry) : RegistryNode :=
  { entry.registration with
    registerTime :=
      if entry.registration.registerTime = 0 then entry.registered
      else entry.registration.registerTime
    lastHeartbeat := entry.seen }

/-- The seconds since the node was last heard of. -/
def Entry.age (entry : Entry) (now : UInt64) : Int := now.toNat - entry.seen.toNat

abbrev NodeTable := Bytes → Bytes → Option Entry

inductive Operation where
  | registerService (node : RegistryNode)
  | deregisterService (serviceName nodeId : Bytes)
  | heartbeat (serviceName nodeId : Bytes)
  | cleanupExpiredNodes (timeoutSeconds : Int32)
  | discover (serviceName : Bytes)
  | setServiceChangeCallback (callback : Bool)

namespace NodeTable

def empty : NodeTable := fun _ _ => none

/-- Change what is known of one node. -/
def update (table : NodeTable) (service id : Bytes) (change : Option Entry → Option Entry)
    (serviceName nodeId : Bytes) : Option Entry :=
  if serviceName = service ∧ nodeId = id then change (table serviceName nodeId)
  else table serviceName nodeId

def removeOlder (table : NodeTable) (now : UInt64) (seconds : Int) (serviceName nodeId : Bytes) :
    Option Entry :=
  (table serviceName nodeId).filter fun entry => entry.age now ≤ seconds

/-- An operation at the time at which it is run. -/
def step (table : NodeTable) : UInt64 × Operation → NodeTable
  | (now, .registerService node) =>
      table.update node.serviceName node.nodeId fun _ => some ⟨node, now, now⟩
  | (_, .deregisterService serviceName nodeId) => table.update serviceName nodeId fun _ => none
  | (now, .heartbeat serviceName nodeId) =>
      table.update serviceName nodeId (Option.map fun entry => { entry with seen := now })
  | (now, .cleanupExpiredNodes timeoutSeconds) => table.removeOlder now timeoutSeconds.toInt
  | (_, .discover _) => table
  | (_, .setServiceChangeCallback _) => table

def run (operations : List (UInt64 × Operation)) : NodeTable := operations.foldl step empty

end NodeTable

/-! ## The registry -/

/-- `changeCallback` tells whether a callback is set. -/
structure Registry where
  services : ServiceMap
  changeCallback : Bool

inductive Answer where
  | result (value : Bool)
  | nodes (list : List RegistryNode)
  | done

structure Response where
  answer : Answer
  notifications : List Notification

namespace Registry

def initial (changeCallback : Bool) : Registry := ⟨∅, changeCallback⟩

/-- Only a set callback is called. -/
def notify (r : Registry) (notifications : List Notification) : List Notification :=
  if r.changeCallback then notifications else []

theorem mem_notify {r : Registry} {notification : Notification}
    {notifications : List Notification} :
    notification ∈ r.notify notifications ↔
      r.changeCallback = true ∧ notification ∈ notifications := by
  unfold notify
  split
  · next callback => exact ⟨fun member => ⟨callback, member⟩, And.right⟩
  · next callback => exact ⟨nofun, fun both => absurd both.1 callback⟩

def step (r : Registry) : UInt64 × Operation → Response × Registry
  | (now, .registerService node) =>
      let result := registerService r.services node now
      (⟨.result true, r.notify result.2⟩, { r with services := result.1 })
  | (_, .deregisterService serviceName nodeId) =>
      let result := deregisterService r.services serviceName nodeId
      (⟨.result result.2.2, r.notify result.2.1⟩, { r with services := result.1 })
  | (now, .heartbeat serviceName nodeId) =>
      let result := heartbeat r.services serviceName nodeId now
      (⟨.result result.2, []⟩, { r with services := result.1 })
  | (now, .cleanupExpiredNodes timeoutSeconds) =>
      let result := cleanupExpiredNodes r.services timeoutSeconds now
      (⟨.done, r.notify result.2⟩, { r with services := result.1 })
  | (_, .discover serviceName) => (⟨.nodes (discover r.services serviceName), []⟩, r)
  | (_, .setServiceChangeCallback callback) =>
      (⟨.done, []⟩, { r with changeCallback := callback })

def run (r : Registry) (operations : List (UInt64 × Operation)) : Registry :=
  Mealy.run step r operations

end Registry

/-- No timeout is negative. -/
def Operation.Valid : Operation → Prop
  | .cleanupExpiredNodes timeoutSeconds => 0 ≤ timeoutSeconds
  | _ => True

/-- The operations follow one another and the time `since`, with valid timeouts. -/
def Timed (since : UInt64) : List (UInt64 × Operation) → Prop
  | [] => True
  | (now, operation) :: rest => since ≤ now ∧ operation.Valid ∧ Timed now rest

/-! ## The table is followed -/

/-- What a table knows of a node at the time `now`. -/
structure Entry.Fits (now : UInt64) (serviceName nodeId : Bytes) (entry : Entry) : Prop where
  service : entry.registration.serviceName = serviceName
  id : entry.registration.nodeId = nodeId
  heard : entry.seen ≤ now

structure Shows (now : UInt64) (services : ServiceMap) (table : NodeTable) : Prop where
  nodes : ∀ serviceName nodeId,
    lookupNode services serviceName nodeId = (table serviceName nodeId).map Entry.node
  entries : ∀ serviceName nodeId entry, table serviceName nodeId = some entry →
    entry.Fits now serviceName nodeId
  nonempty : ∀ serviceName nodeMap, services.lookup serviceName = some nodeMap →
    nodeMap.entries ≠ []

theorem Shows.initial (now : UInt64) : Shows now ∅ NodeTable.empty where
  nodes _ _ := rfl
  entries _ _ _ := nofun
  nonempty _ _ := nofun

/-- The unsigned comparison is that of the ages. -/
theorem expired_iff {now : UInt64} {timeoutSeconds : Int32} (valid : 0 ≤ timeoutSeconds)
    {entry : Entry} (heard : entry.seen ≤ now) :
    expired now timeoutSeconds entry.node = true ↔ timeoutSeconds.toInt < entry.age now := by
  have nonneg : 0 ≤ timeoutSeconds.toInt := Int32.le_iff_toInt_le.mp valid
  have timeout : timeoutSeconds.toInt64.toUInt64.toNat = timeoutSeconds.toInt.toNat := by
    have wide : 0 ≤ timeoutSeconds.toInt64 := by
      rw [Int64.le_iff_toInt_le, Int32.toInt_toInt64]
      exact nonneg
    rw [Int64.toNat_toUInt64_of_le wide, ← Int64.toNat_toInt, Int32.toInt_toInt64]
  have elapsed : (now - entry.seen).toNat = now.toNat - entry.seen.toNat :=
    UInt64.toNat_sub_of_le _ _ heard
  have order : entry.seen.toNat ≤ now.toNat := UInt64.le_iff_toNat_le.mp heard
  have compared : expired now timeoutSeconds entry.node = true ↔
      timeoutSeconds.toInt64.toUInt64.toNat < (now - entry.seen).toNat := by
    rw [expired, decide_eq_true_iff, UInt64.lt_iff_toNat_lt]
    rfl
  rw [compared, timeout, elapsed, Entry.age]
  omega

section Steps

variable {since now : UInt64} {services : ServiceMap} {table : NodeTable}

theorem Shows.later (shows : Shows since services table) (ordered : since ≤ now) :
    Shows now services table where
  nodes := shows.nodes
  entries serviceName nodeId entry found := by
    have fits := shows.entries serviceName nodeId entry found
    exact { fits with heard := UInt64.le_trans fits.heard ordered }
  nonempty := shows.nonempty

/-- A change of one node. -/
theorem Shows.update (shows : Shows now services table) {changed : ServiceMap} {service id : Bytes}
    {change : Option Entry → Option Entry}
    (looked : ∀ serviceName nodeId, lookupNode changed serviceName nodeId =
      if serviceName = service ∧ nodeId = id then (change (table serviceName nodeId)).map Entry.node
      else lookupNode services serviceName nodeId)
    (fits : ∀ entry, change (table service id) = some entry → entry.Fits now service id)
    (nonempty : ∀ serviceName nodeMap, changed.lookup serviceName = some nodeMap →
      nodeMap.entries ≠ []) :
    Shows now changed (table.update service id change) where
  nodes serviceName nodeId := by
    rw [looked, NodeTable.update, shows.nodes]
    split
    · rfl
    · rfl
  entries serviceName nodeId entry found := by
    rw [NodeTable.update] at found
    split at found
    · next same =>
        obtain ⟨rfl, rfl⟩ := same
        exact fits entry found
    · exact shows.entries serviceName nodeId entry found
  nonempty := nonempty

theorem Shows.registerService (shows : Shows now services table) (node : RegistryNode) :
    Shows now (registerService services node now).1 (table.step (now, .registerService node)) := by
  refine @Shows.update now services table shows _ _ _ (fun _ => some ⟨node, now, now⟩)
    (lookupNode_registerService services node now) ?_ ?_
  · intro entry known
    cases known
    exact ⟨rfl, rfl, UInt64.le_refl now⟩
  · intro serviceName nodeMap found
    unfold MemoryRegistry.registerService at found
    by_cases same : serviceName = node.serviceName
    · rw [same, AList.lookup_insert] at found
      cases found
      exact List.cons_ne_nil _ _
    · rw [AList.lookup_insert_ne same] at found
      exact shows.nonempty serviceName nodeMap found

theorem Shows.deregisterService (shows : Shows now services table) (service id : Bytes) :
    Shows now (deregisterService services service id).1
      (table.step (now, .deregisterService service id)) := by
  refine @Shows.update now services table shows _ _ _ (fun _ => none)
    (lookupNode_deregisterService services service id) (fun _ => nofun) ?_
  intro serviceName nodeMap found
  unfold MemoryRegistry.deregisterService at found
  split at found
  · exact shows.nonempty serviceName nodeMap found
  · split at found
    · exact shows.nonempty serviceName nodeMap found
    · dsimp only at found
      by_cases same : serviceName = service
      · subst same
        split at found
        · rw [AList.lookup_erase] at found
          cases found
        · next left =>
            rw [AList.lookup_insert] at found
            cases found
            exact left
      · split at found
        · rw [AList.lookup_erase_ne same] at found
          exact shows.nonempty serviceName nodeMap found
        · rw [AList.lookup_insert_ne same] at found
          exact shows.nonempty serviceName nodeMap found

theorem Shows.heartbeat (shows : Shows now services table) (service id : Bytes) :
    Shows now (heartbeat services service id now).1
      (table.step (now, .heartbeat service id)) := by
  refine shows.update ?_ ?_ ?_
  · intro serviceName nodeId
    rw [lookupNode_heartbeat, shows.nodes, Option.map_map, Option.map_map]
    rfl
  · intro entry known
    obtain ⟨old, found, rfl⟩ := Option.map_eq_some_iff.mp known
    exact { shows.entries service id old found with heard := UInt64.le_refl now }
  · intro serviceName nodeMap found
    unfold MemoryRegistry.heartbeat at found
    split at found
    · exact shows.nonempty serviceName nodeMap found
    · next old known =>
        split at found
        · exact shows.nonempty serviceName nodeMap found
        · next node present =>
            dsimp only at found
            rw [lookup_replace known] at found
            split at found
            · cases found
              -- the node that was found is still there
              intro gone
              have kept := lookup_replace present id { node with lastHeartbeat := now }
              rw [if_pos rfl, AList.lookup, gone] at kept
              cases kept
            · exact shows.nonempty serviceName nodeMap found

theorem Shows.cleanupExpiredNodes (shows : Shows now services table) {timeoutSeconds : Int32}
    (valid : 0 ≤ timeoutSeconds) :
    Shows now (cleanupExpiredNodes services timeoutSeconds now).1
      (table.step (now, .cleanupExpiredNodes timeoutSeconds)) where
  nodes serviceName nodeId := by
    rw [lookupNode_cleanupExpiredNodes, shows.nodes, NodeTable.step, NodeTable.removeOlder]
    cases found : table serviceName nodeId with
    | none => rfl
    | some entry =>
        have heard := (shows.entries serviceName nodeId entry found).heard
        have kept : (!expired now timeoutSeconds entry.node) =
            decide (entry.age now ≤ timeoutSeconds.toInt) := by
          rw [Bool.eq_iff_iff, Bool.not_eq_true', decide_eq_true_iff, ← Bool.not_eq_true,
            expired_iff valid heard, not_lt]
        rw [Option.map_some, Option.filter_some, Option.filter_some, kept]
        split
        · rfl
        · rfl
  entries serviceName nodeId entry found :=
    shows.entries serviceName nodeId entry (Option.eq_some_of_filter_eq_some found)
  nonempty serviceName nodeMap found := by
    rw [lookup_cleanupExpiredNodes] at found
    have left := (Option.filter_eq_some_iff.mp found).2
    simpa using left

theorem Shows.step {r : Registry} (shows : Shows since r.services table) (ordered : since ≤ now)
    {operation : Operation} (valid : operation.Valid) :
    Shows now (r.step (now, operation)).2.services (table.step (now, operation)) := by
  have current := shows.later ordered
  cases operation with
  | registerService node => exact current.registerService node
  | deregisterService serviceName nodeId => exact current.deregisterService serviceName nodeId
  | heartbeat serviceName nodeId => exact current.heartbeat serviceName nodeId
  | cleanupExpiredNodes timeoutSeconds => exact current.cleanupExpiredNodes valid
  | discover serviceName => exact current
  | setServiceChangeCallback callback => exact current

end Steps

/-- The registry and the table after the first operations, with those still to come. -/
theorem Shows.run {since : UInt64} {r : Registry} {table : NodeTable}
    (shows : Shows since r.services table) {before after : List (UInt64 × Operation)}
    (timed : Timed since (before ++ after)) :
    ∃ now, Shows now (r.run before).services (before.foldl NodeTable.step table) ∧
      Timed now after := by
  induction before generalizing since r table with
  | nil => exact ⟨since, shows, timed⟩
  | cons operation before ih =>
      obtain ⟨ordered, valid, later⟩ := timed
      exact ih (shows.step ordered valid) later

/-! ## What the operations return -/

/-- The nodes of each service are those of the table, each node id once. -/
def Listed (services : ServiceMap) (table : NodeTable) : Prop :=
  ∀ serviceName, ((discover services serviceName).map RegistryNode.nodeId).Nodup ∧
    ∀ node, node ∈ discover services serviceName ↔
      ∃ entry, table serviceName node.nodeId = some entry ∧ entry.node = node

/-- What an operation on a registry that shows the table returns and announces. -/
def Answered (r : Registry) (table : NodeTable) (now : UInt64) :
    Operation → Response × Registry → Prop
  | .registerService node, (response, next) =>
      response.answer = .result true ∧
        response.notifications =
          r.notify [(node.serviceName, discover next.services node.serviceName)]
  | .deregisterService serviceName nodeId, (response, next) =>
      response.answer = .result (table serviceName nodeId).isSome ∧
        (table serviceName nodeId ≠ none → response.notifications =
          r.notify [(serviceName, discover next.services serviceName)]) ∧
        (table serviceName nodeId = none → response.notifications = [] ∧ next = r)
  | .heartbeat serviceName nodeId, (response, next) =>
      response.answer = .result (table serviceName nodeId).isSome ∧ response.notifications = [] ∧
        (table serviceName nodeId = none → next = r)
  | .cleanupExpiredNodes timeoutSeconds, (response, next) =>
      (∀ notification ∈ response.notifications,
        r.changeCallback = true ∧ notification.2 = discover next.services notification.1) ∧
        ∀ serviceName nodeId, r.changeCallback = true → table serviceName nodeId ≠ none →
          table.removeOlder now timeoutSeconds.toInt serviceName nodeId = none →
            (serviceName, discover next.services serviceName) ∈ response.notifications
  | .discover serviceName, (response, next) =>
      response.answer = .nodes (discover r.services serviceName) ∧ response.notifications = [] ∧
        next = r
  | .setServiceChangeCallback _, (response, next) =>
      response.notifications = [] ∧ next.services = r.services

section Answers

variable {now : UInt64} {services : ServiceMap} {table : NodeTable}

theorem nodeIds_nodes {nodeMap : NodeMap}
    (keyed : ∀ nodeId node, nodeMap.lookup nodeId = some node → node.nodeId = nodeId) :
    (nodes nodeMap).map RegistryNode.nodeId = nodeMap.entries.keys := by
  rw [nodes, List.map_map]
  refine List.map_congr_left fun entry member => ?_
  exact keyed entry.1 entry.2 (AList.mem_lookup_iff.mpr member)

theorem Shows.listed (shows : Shows now services table) : Listed services table := by
  -- the node that is found under an id carries that id
  have keyed : ∀ serviceName nodeId node, lookupNode services serviceName nodeId = some node →
      ∃ entry, table serviceName node.nodeId = some entry ∧ entry.node = node ∧
        node.nodeId = nodeId := by
    intro serviceName nodeId node found
    rw [shows.nodes] at found
    obtain ⟨entry, known, rfl⟩ := Option.map_eq_some_iff.mp found
    have id : entry.node.nodeId = nodeId := (shows.entries serviceName nodeId entry known).id
    exact ⟨entry, id.symm ▸ known, rfl, id⟩
  intro serviceName
  constructor
  · unfold discover
    cases found : services.lookup serviceName with
    | none => exact List.nodup_nil
    | some nodeMap =>
        dsimp only
        rw [nodeIds_nodes]
        · exact nodeMap.nodupKeys
        · intro nodeId node present
          have looked : lookupNode services serviceName nodeId = some node := by
            rw [lookupNode, found, Option.bind_some, present]
          obtain ⟨_, _, _, id⟩ := keyed serviceName nodeId node looked
          exact id
  · intro node
    rw [mem_discover_iff]
    constructor
    · rintro ⟨nodeId, found⟩
      obtain ⟨entry, known, shown, _⟩ := keyed serviceName nodeId node found
      exact ⟨entry, known, shown⟩
    · rintro ⟨entry, known, rfl⟩
      exact ⟨entry.node.nodeId, by rw [shows.nodes, known, Option.map_some]⟩

theorem Shows.lastHeartbeat_le (shows : Shows now services table) {serviceName : Bytes}
    {node : RegistryNode} (member : node ∈ discover services serviceName) :
    node.lastHeartbeat ≤ now := by
  obtain ⟨entry, known, rfl⟩ := ((shows.listed serviceName).2 node).mp member
  exact (shows.entries _ _ _ known).heard

theorem deregisterService_absent {serviceName nodeId : Bytes}
    (absent : lookupNode services serviceName nodeId = none) :
    deregisterService services serviceName nodeId = (services, [], false) := by
  unfold lookupNode at absent
  unfold deregisterService
  cases found : services.lookup serviceName with
  | none => rfl
  | some nodeMap =>
      rw [found, Option.bind_some] at absent
      dsimp only
      rw [absent]

theorem deregisterService_present {serviceName nodeId : Bytes} {node : RegistryNode}
    (present : lookupNode services serviceName nodeId = some node) :
    (deregisterService services serviceName nodeId).2 =
      ([(serviceName, discover (deregisterService services serviceName nodeId).1 serviceName)],
        true) := by
  obtain ⟨nodeMap, found, known⟩ := Option.bind_eq_some_iff.mp present
  unfold deregisterService
  rw [found]
  dsimp only
  rw [known]
  dsimp only
  split
  · next empty => rw [discover_erase, nodes, empty, List.map_nil]
  · rw [discover_insert]

theorem heartbeat_absent {serviceName nodeId : Bytes}
    (absent : lookupNode services serviceName nodeId = none) (nowTs : UInt64) :
    heartbeat services serviceName nodeId nowTs = (services, false) := by
  unfold lookupNode at absent
  unfold heartbeat
  cases found : services.lookup serviceName with
  | none => rfl
  | some nodeMap =>
      rw [found, Option.bind_some] at absent
      dsimp only
      rw [absent]

theorem heartbeat_present {serviceName nodeId : Bytes} {node : RegistryNode}
    (present : lookupNode services serviceName nodeId = some node) (nowTs : UInt64) :
    (heartbeat services serviceName nodeId nowTs).2 = true := by
  obtain ⟨nodeMap, found, known⟩ := Option.bind_eq_some_iff.mp present
  unfold heartbeat
  rw [found]
  dsimp only
  rw [known]

/-- A service of which a node is known is announced by a cleanup. -/
theorem cleanupExpiredNodes_announces {serviceName nodeId : Bytes} {node : RegistryNode}
    (present : lookupNode services serviceName nodeId = some node) (timeoutSeconds : Int32) :
    (serviceName, discover (cleanupExpiredNodes services timeoutSeconds now).1 serviceName) ∈
      (cleanupExpiredNodes services timeoutSeconds now).2 := by
  obtain ⟨nodeMap, found, _⟩ := Option.bind_eq_some_iff.mp present
  have key : serviceName ∈ (cleanupExpiredNodes services timeoutSeconds now).2.map Prod.fst := by
    rw [cleanupExpiredNodes, sweep_notified]
    exact List.dlookup_isSome.mp (Option.isSome_of_eq_some found)
  obtain ⟨⟨name, list⟩, member, rfl⟩ := List.mem_map.mp key
  have current := (cleanupExpiredNodes_snapshots services timeoutSeconds now).current _ member
  exact current ▸ member

theorem Shows.answered {since : UInt64} {r : Registry} (shows : Shows since r.services table)
    (operation : Operation) : Answered r table now operation (r.step (now, operation)) := by
  cases operation with
  | registerService node =>
      refine ⟨rfl, ?_⟩
      change r.notify _ = r.notify _
      rw [MemoryRegistry.registerService, discover_insert]
  | deregisterService serviceName nodeId =>
      have looked := shows.nodes serviceName nodeId
      cases known : table serviceName nodeId with
      | none =>
          rw [known] at looked
          rw [Registry.step, deregisterService_absent looked]
          refine ⟨by rw [known]; rfl, fun some => absurd known some, fun _ => ⟨?_, rfl⟩⟩
          rw [Registry.notify, ite_self]
      | some entry =>
          rw [known] at looked
          have result := deregisterService_present looked
          refine ⟨?_, fun _ => ?_, fun none => by rw [known] at none; cases none⟩
          · rw [known]
            exact congrArg Answer.result (congrArg Prod.snd result)
          · exact congrArg r.notify (congrArg Prod.fst result)
  | heartbeat serviceName nodeId =>
      have looked := shows.nodes serviceName nodeId
      cases known : table serviceName nodeId with
      | none =>
          rw [known] at looked
          rw [Registry.step, heartbeat_absent looked]
          exact ⟨by rw [known]; rfl, rfl, fun _ => rfl⟩
      | some entry =>
          rw [known] at looked
          refine ⟨?_, rfl, fun none => by rw [known] at none; cases none⟩
          rw [known]
          exact congrArg Answer.result (heartbeat_present looked now)
  | cleanupExpiredNodes timeoutSeconds =>
      constructor
      · intro notification member
        obtain ⟨callback, member⟩ := Registry.mem_notify.mp member
        exact ⟨callback, (cleanupExpiredNodes_snapshots ..).current notification member⟩
      · intro serviceName nodeId callback known _
        obtain ⟨entry, known⟩ := Option.ne_none_iff_exists'.mp known
        have looked := shows.nodes serviceName nodeId
        rw [known] at looked
        exact Registry.mem_notify.mpr
          ⟨callback, cleanupExpiredNodes_announces looked timeoutSeconds⟩
  | discover serviceName => exact ⟨rfl, rfl, rfl⟩
  | setServiceChangeCallback callback => exact ⟨rfl, rfl⟩

end Answers

/--
The registry refines the node map: `discover` lists the table, no service is kept
without nodes, no node was heard of later than the clock shows, and every operation
returns and announces what the table says.
-/
theorem registry_refines_table (changeCallback : Bool) {start : UInt64}
    {operations : List (UInt64 × Operation)} (timed : Timed start operations) :
    (∀ before after, operations = before ++ after →
      Listed ((Registry.initial changeCallback).run before).services (NodeTable.run before) ∧
        ∀ serviceName nodeMap,
          ((Registry.initial changeCallback).run before).services.lookup serviceName =
            some nodeMap → nodeMap.entries ≠ []) ∧
    ∀ before now operation after, operations = before ++ (now, operation) :: after →
      (∀ serviceName,
        ∀ node ∈ discover ((Registry.initial changeCallback).run before).services serviceName,
          node.lastHeartbeat ≤ now) ∧
        Answered ((Registry.initial changeCallback).run before) (NodeTable.run before) now operation
          (((Registry.initial changeCallback).run before).step (now, operation)) := by
  have initial : Shows start (Registry.initial changeCallback).services NodeTable.empty :=
    Shows.initial start
  constructor
  · rintro before after rfl
    obtain ⟨now, shows, _⟩ := initial.run timed
    exact ⟨shows.listed, shows.nonempty⟩
  · rintro before now operation after rfl
    obtain ⟨since, shows, ordered, _⟩ := initial.run timed
    refine ⟨?_, shows.answered operation⟩
    intro serviceName node member
    exact (shows.later ordered).lastHeartbeat_le member

/-- A node that is heard of once, and a cleanup that comes too late for it. -/
def forgottenNode : List (UInt64 × Operation) :=
  [(5, .registerService ⟨text "Echo", text "n1", text "localhost", 8080, 0, 0⟩),
    (20, .heartbeat (text "Echo") (text "n1")), (60, .cleanupExpiredNodes 30)]

theorem registry_refines_table_forgottenNode :
    Timed 0 forgottenNode ∧
      Listed ((Registry.initial true).run forgottenNode).services (NodeTable.run forgottenNode) := by
  have timed : Timed 0 forgottenNode := by
    simp only [Timed, forgottenNode, Operation.Valid]
    decide
  refine ⟨timed, ((registry_refines_table true timed).1 forgottenNode [] ?_).1⟩
  rw [List.append_nil]

end RpcFramework.MemoryRegistry
