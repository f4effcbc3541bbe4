import RpcFramework.Discovery.MemoryRegistry
import RpcFramework.Lib.Decimal
import RpcFramework.Protocol.Messages

/-!
# The etcd registry

`EtcdRegistry` keeps every node under one key of a key-value store, which joins
the service name and the node id by slashes, and finds the nodes of a service by
listing the keys with the prefix of the service.  The store is a map here: `put`,
`rm` and `ls` act on it as their names say, and no lease expires.  Values are
JSON texts; `Json` holds the two entry points of the JSON library.

The registries are compared through a directory that remembers the latest
registration of every node id of every service.  The in-memory registry always
shows the directory.  The etcd registry shows it as long as no slash occurs in
the names that are registered.
-/

namespace RpcFramework

/-- The registry, with the store that its client reaches. -/
structure EtcdRegistry where
  keyPrefix : Bytes
  store : AList (fun _ : Bytes => Bytes)
  watching : List Bytes

namespace EtcdRegistry

open Decimal MemoryRegistry

/-! ## Nodes as JSON -/

inductive JsonValue where
  | string (value : Bytes)
  | number (value : Nat)

abbrev JsonObject := AList (fun _ : Bytes => JsonValue)

/-- `json::dump` and `json::parse`, which throws on other texts. -/
structure Json where
  dump : JsonObject → Bytes
  parse : Bytes → Option JsonObject

def nodeToObject (node : RegistryNode) : JsonObject :=
  (((((AList.insert (text "serviceName") (.string node.serviceName) ∅).insert
    (text "nodeId") (.string node.nodeId)).insert
    (text "host") (.string node.host)).insert
    (text "port") (.number node.port.toNat)).insert
    (text "registerTime") (.number node.registerTime.toNat)).insert
    (text "lastHeartbeat") (.number node.lastHeartbeat.toNat)

def nodeToJson (json : Json) (node : RegistryNode) : Bytes := json.dump (nodeToObject node)

/-- `j.value(key, "")`: the default for an absent key, an exception for another type. -/
def stringValue (j : JsonObject) (key : Bytes) : Option Bytes :=
  match j.lookup key with
  | none => some []
  | some (.string value) => some value
  | some (.number _) => none

/-- `j.value(key, 0)`. -/
def numberValue (j : JsonObject) (key : Bytes) : Option Nat :=
  match j.lookup key with
  | none => some 0
  | some (.number value) => some value
  | some (.string _) => none

/-- The assignments of `jsonToNode`, in their order. -/
def assignments : List (JsonObject → RegistryNode → Option RegistryNode) :=
  [fun j node => (stringValue j (text "serviceName")).map fun v => { node with serviceName := v },
    fun j node => (stringValue j (text "nodeId")).map fun v => { node with nodeId := v },
    fun j node => (stringValue j (text "host")).map fun v => { node with host := v },
    fun j node => (numberValue j (text "port")).map fun v => { node with port := .ofNat v },
    fun j node => (numberValue j (text "registerTime")).map fun v =>
      { node with registerTime := .ofNat v },
    fun j node => (numberValue j (text "lastHeartbeat")).map fun v =>
      { node with lastHeartbeat := .ofNat v }]

/-- An exception ends the assignments; what has been assigned stays. -/
def assign (j : JsonObject) (node : RegistryNode) :
    List (JsonObject → RegistryNode → Option RegistryNode) → RegistryNode
  | [] => node
  | assignment :: rest =>
      match assignment j node with
      | none => node
      | some node => assign j node rest

/-- `memory` gives the fields that a new `RegistryNode` leaves uninitialised. -/
def jsonToNode (json : Json) (memory : UInt16 × UInt64 × UInt64) (value : Bytes) : RegistryNode :=
  let node : RegistryNode := ⟨[], [], [], memory.1, memory.2.1, memory.2.2⟩
  match json.parse value with
  | none => node
  | some j => assign j node assignments

/-- The JSON of a node parses back to its object. -/
def Json.Faithful (json : Json) : Prop :=
  ∀ node, json.parse (nodeToJson json node) = some (nodeToObject node)

theorem assign_nodeToObject (node start : RegistryNode) :
    assign (nodeToObject node) start assignments = node := by
  have distinct : [text "serviceName", text "nodeId", text "host", text "port",
      text "registerTime", text "lastHeartbeat"].Nodup := by
    decide +kernel
  simp only [List.nodup_cons, List.mem_cons, not_or] at distinct
  simp [assign, assignments, nodeToObject, stringValue, numberValue, AList.lookup_insert_ne,
    distinct, -AList.insert_empty]

theorem Json.Faithful.jsonToNode {json : Json} (faithful : json.Faithful)
    (memory : UInt16 × UInt64 × UInt64) (node : RegistryNode) :
    jsonToNode json memory (nodeToJson json node) = node := by
  simp only [EtcdRegistry.jsonToNode, faithful node, assign_nodeToObject]

/-! ## The operations -/

def slash : UInt8 := 0x2f

def nodeKey (r : EtcdRegistry) (serviceName nodeId : Bytes) : Bytes :=
  r.keyPrefix ++ slash :: serviceName ++ slash :: nodeId

def servicePrefix (r : EtcdRegistry) (serviceName : Bytes) : Bytes :=
  r.keyPrefix ++ slash :: serviceName ++ [slash]

/-- The values of the entries whose key starts with `start`. -/
def ls (r : EtcdRegistry) (start : Bytes) : List Bytes :=
  (r.store.entries.filter fun entry => start.isPrefixOf entry.1).map Sigma.snd

/-- A watch thread is started once for a service. -/
def startWatchLoop (r : EtcdRegistry) (serviceName : Bytes) : EtcdRegistry :=
  if serviceName ∈ r.watching then r else { r with watching := serviceName :: r.watching }

section Operations

variable (json : Json) (memory : UInt16 × UInt64 × UInt64)

def discover (r : EtcdRegistry) (serviceName : Bytes) : List RegistryNode :=
  (r.ls (r.servicePrefix serviceName)).map (jsonToNode json memory)

def notifyChange (r : EtcdRegistry) (serviceName : Bytes) : List Notification :=
  [(serviceName, r.discover json memory serviceName)]

def registerService (r : EtcdRegistry) (node : RegistryNode) :
    EtcdRegistry × List Notification × Bool :=
  let key := r.nodeKey node.serviceName node.nodeId
  let r := { r with store := r.store.insert key (nodeToJson json node) }
  (r.startWatchLoop node.serviceName, r.notifyChange json memory node.serviceName, true)

/-- `rm` answers with an error when the key is absent. -/
def deregisterService (r : EtcdRegistry) (serviceName nodeId : Bytes) :
    EtcdRegistry × List Notification × Bool :=
  let key := r.nodeKey serviceName nodeId
  if (r.store.lookup key).isSome then
    let r := { r with store := r.store.erase key }
    (r, r.notifyChange json memory serviceName, true)
  else (r, [], false)

end Operations

/-! ## Sequences of calls on both registries -/

inductive Change where
  | registerService (node : RegistryNode) (nowTs : UInt64)
  | deregisterService (serviceName nodeId : Bytes)

/-- The pair of names that a call registers is allowed. -/
def Change.Registers (Allowed : Bytes → Bytes → Prop) : Change → Prop
  | .registerService node _ => Allowed node.serviceName node.nodeId
  | .deregisterService _ _ => True

def onMemory (services : ServiceMap) : Change → ServiceMap
  | .registerService node nowTs => (MemoryRegistry.registerService services node nowTs).1
  | .deregisterService serviceName nodeId =>
      (MemoryRegistry.deregisterService services serviceName nodeId).1

def memoryAfter (changes : List Change) : ServiceMap := changes.foldl onMemory ∅

def onEtcd (json : Json) (memory : UInt16 × UInt64 × UInt64) (r : EtcdRegistry) :
    Change → EtcdRegistry
  | .registerService node _ => (r.registerService json memory node).1
  | .deregisterService serviceName nodeId => (r.deregisterService json memory serviceName nodeId).1

def etcdAfter (json : Json) (memory : UInt16 × UInt64 × UInt64) (keyPrefix : Bytes)
    (changes : List Change) : EtcdRegistry :=
  changes.foldl (onEtcd json memory) ⟨keyPrefix, ∅, []⟩

def endpoint (node : RegistryNode) : Bytes × Bytes × UInt16 := (node.nodeId, node.host, node.port)

def endpoints (nodes : List RegistryNode) : Finset (Bytes × Bytes × UInt16) :=
  (nodes.map endpoint).toFinset

/-! ## The directory that both registries show -/

/-- The latest registration of every node id of every service. -/
abbrev Directory := Bytes → Bytes → Option RegistryNode

namespace Directory

def empty : Directory := fun _ _ => none

def set (d : Directory) (serviceName nodeId : Bytes) (node : Option RegistryNode) : Directory :=
  fun s n => if s = serviceName ∧ n = nodeId then node else d s n

def after (d : Directory) : Change → Directory
  | .registerService node _ => d.set node.serviceName node.nodeId (some node)
  | .deregisterService serviceName nodeId => d.set serviceName nodeId none

def Lists (d : Directory) (serviceName : Bytes) (entry : Bytes × Bytes × UInt16) : Prop :=
  ∃ nodeId, (d serviceName nodeId).map endpoint = some entry

end Directory

theorem mem_endpoints {nodes : List RegistryNode} {entry : Bytes × Bytes × UInt16} :
    entry ∈ endpoints nodes ↔ ∃ node ∈ nodes, endpoint node = entry := by
  rw [endpoints, List.mem_toFinset, List.mem_map]

/-! ### The in-memory registry -/

/-- The table keeps the nodes of the directory, with times of its own. -/
def MemoryShows (services : ServiceMap) (d : Directory) : Prop :=
  ∀ serviceName nodeId,
    (lookupNode services serviceName nodeId).map endpoint = (d serviceName nodeId).map endpoint

theorem memoryShows_empty : MemoryShows ∅ .empty := fun _ _ => rfl

theorem MemoryShows.after {services : ServiceMap} {d : Directory} (shows : MemoryShows services d)
    (change : Change) : MemoryShows (onMemory services change) (d.after change) := by
  intro serviceName nodeId
  cases change with
  | registerService node nowTs =>
      rw [onMemory, lookupNode_registerService, Directory.after, Directory.set]
      split
      · rfl
      · exact shows serviceName nodeId
  | deregisterService otherService otherId =>
      rw [onMemory, lookupNode_deregisterService, Directory.after, Directory.set]
      split
      · rfl
      · exact shows serviceName nodeId

theorem MemoryShows.mem_endpoints {services : ServiceMap} {d : Directory}
    (shows : MemoryShows services d) {serviceName : Bytes} {entry : Bytes × Bytes × UInt16} :
    entry ∈ endpoints (MemoryRegistry.discover services serviceName) ↔
      d.Lists serviceName entry := by
  rw [EtcdRegistry.mem_endpoints]
  constructor
  · rintro ⟨node, member, shown⟩
    obtain ⟨nodeId, found⟩ := mem_discover_iff.mp member
    refine ⟨nodeId, ?_⟩
    rw [← shows serviceName nodeId, found, Option.map_some, shown]
  · rintro ⟨nodeId, listed⟩
    rw [← shows serviceName nodeId] at listed
    obtain ⟨node, found, shown⟩ := Option.map_eq_some_iff.mp listed
    exact ⟨node, mem_discover_iff.mpr ⟨nodeId, found⟩, shown⟩

/-! ### The etcd registry -/

def Plain (serviceName nodeId : Bytes) : Prop := slash ∉ serviceName ∧ slash ∉ nodeId

theorem Plain.nodeKey_inj {serviceName nodeId otherService otherId : Bytes}
    (plain : Plain serviceName nodeId) {r : EtcdRegistry} :
    r.nodeKey serviceName nodeId = r.nodeKey otherService otherId ↔
      serviceName = otherService ∧ nodeId = otherId := by
  rw [nodeKey, nodeKey, List.append_assoc, List.append_assoc, List.append_cancel_left_eq,
    List.cons_append, List.cons_append, List.cons_inj_right,
    List.append_cons_inj_of_notMem plain.1 plain.2]
  exact ⟨fun same => ⟨same.1, same.2.2⟩, fun same => ⟨same.1, rfl, same.2⟩⟩

/-- A key lies below a service iff one of its splits names the service. -/
theorem servicePrefix_prefix_iff {r : EtcdRegistry} {serviceName key : Bytes} :
    r.servicePrefix serviceName <+: key ↔ ∃ nodeId, key = r.nodeKey serviceName nodeId := by
  constructor
  · rintro ⟨nodeId, rfl⟩
    refine ⟨nodeId, ?_⟩
    rw [servicePrefix, nodeKey, List.append_assoc, List.singleton_append]
  · rintro ⟨nodeId, rfl⟩
    refine ⟨nodeId, ?_⟩
    rw [servicePrefix, nodeKey, List.append_assoc, List.singleton_append]

theorem mem_ls {r : EtcdRegistry} {start value : Bytes} :
    value ∈ r.ls start ↔ ∃ key, r.store.lookup key = some value ∧ start <+: key := by
  rw [ls, List.mem_map]
  constructor
  · rintro ⟨entry, member, rfl⟩
    obtain ⟨stored, starts⟩ := List.mem_filter.mp member
    exact ⟨entry.1, AList.mem_lookup_iff.mpr stored, List.isPrefixOf_iff_prefix.mp starts⟩
  · rintro ⟨key, stored, starts⟩
    exact ⟨⟨key, value⟩, List.mem_filter.mpr
      ⟨AList.mem_lookup_iff.mp stored, List.isPrefixOf_iff_prefix.mpr starts⟩, rfl⟩

/-- `discover` finds the values of all keys that can be split at the service. -/
theorem mem_discover {json : Json} {memory : UInt16 × UInt64 × UInt64} {r : EtcdRegistry}
    {serviceName : Bytes} {node : RegistryNode} :
    node ∈ r.discover json memory serviceName ↔
      ∃ nodeId value, r.store.lookup (r.nodeKey serviceName nodeId) = some value ∧
        jsonToNode json memory value = node := by
  rw [discover, List.mem_map]
  constructor
  · rintro ⟨value, listed, rfl⟩
    obtain ⟨key, stored, below⟩ := mem_ls.mp listed
    obtain ⟨nodeId, rfl⟩ := servicePrefix_prefix_iff.mp below
    exact ⟨nodeId, value, stored, rfl⟩
  · rintro ⟨nodeId, value, stored, rfl⟩
    exact ⟨value, mem_ls.mpr ⟨_, stored, servicePrefix_prefix_iff.mpr ⟨nodeId, rfl⟩⟩, rfl⟩

/-- The store keeps the nodes of the directory, and the names in it are plain. -/
structure EtcdShows (json : Json) (r : EtcdRegistry) (d : Directory) : Prop where
  plain : ∀ {serviceName nodeId node}, d serviceName nodeId = some node → Plain serviceName nodeId
  stored : ∀ {key value}, r.store.lookup key = some value ↔ ∃ serviceName nodeId node,
    d serviceName nodeId = some node ∧ r.nodeKey serviceName nodeId = key ∧
      nodeToJson json node = value

theorem etcdShows_empty (json : Json) (keyPrefix : Bytes) :
    EtcdShows json ⟨keyPrefix, ∅, []⟩ .empty where
  plain := nofun
  stored := ⟨nofun, nofun⟩

section Refinement

variable {json : Json} {memory : UInt16 × UInt64 × UInt64} {r : EtcdRegistry} {d : Directory}

theorem nodeKey_startWatchLoop (r : EtcdRegistry) (serviceName : Bytes) :
    (r.startWatchLoop serviceName).nodeKey = r.nodeKey := by
  unfold startWatchLoop
  split
  · rfl
  · rfl

theorem store_startWatchLoop (r : EtcdRegistry) (serviceName : Bytes) :
    (r.startWatchLoop serviceName).store = r.store := by
  unfold startWatchLoop
  split
  · rfl
  · rfl

theorem nodeKey_registerService (node : RegistryNode) :
    (r.registerService json memory node).1.nodeKey = r.nodeKey := by
  rw [registerService, nodeKey_startWatchLoop]
  rfl

theorem lookup_registerService (node : RegistryNode) (key : Bytes) :
    (r.registerService json memory node).1.store.lookup key =
      if key = r.nodeKey node.serviceName node.nodeId then some (nodeToJson json node)
      else r.store.lookup key := by
  rw [registerService, store_startWatchLoop]
  by_cases same : key = r.nodeKey node.serviceName node.nodeId
  · rw [if_pos same, same, AList.lookup_insert]
  · rw [if_neg same, AList.lookup_insert_ne same]

theorem nodeKey_deregisterService (serviceName nodeId : Bytes) :
    (r.deregisterService json memory serviceName nodeId).1.nodeKey = r.nodeKey := by
  unfold deregisterService
  dsimp only
  split
  · rfl
  · rfl

theorem lookup_deregisterService (serviceName nodeId key : Bytes) :
    (r.deregisterService json memory serviceName nodeId).1.store.lookup key =
      if key = r.nodeKey serviceName nodeId then none else r.store.lookup key := by
  unfold deregisterService
  dsimp only
  split
  · by_cases same : key = r.nodeKey serviceName nodeId
    · rw [if_pos same, same, AList.lookup_erase]
    · rw [if_neg same, AList.lookup_erase_ne same]
  · next absent =>
      split
      · next same => rw [same, Option.not_isSome_iff_eq_none.mp absent]
      · rfl

/-- A change of the value under one key, and of the directory at its pair. -/
theorem EtcdShows.set (shows : EtcdShows json r d) {changed : EtcdRegistry}
    {serviceName nodeId : Bytes} {node : Option RegistryNode}
    (plain : node.isSome = true → Plain serviceName nodeId)
    (keys : changed.nodeKey = r.nodeKey)
    (lookups : ∀ key, changed.store.lookup key =
      if key = r.nodeKey serviceName nodeId then node.map (nodeToJson json)
      else r.store.lookup key) :
    EtcdShows json changed (d.set serviceName nodeId node) where
  plain := by
    intro otherService otherId found listed
    unfold Directory.set at listed
    split at listed
    · next same =>
        rw [same.1, same.2]
        exact plain (Option.isSome_of_mem listed)
    · exact shows.plain listed
  stored := by
    intro key value
    rw [keys, lookups]
    constructor
    · intro stored
      split at stored
      · next same =>
          obtain ⟨found, rfl, written⟩ := Option.map_eq_some_iff.mp stored
          exact ⟨serviceName, nodeId, found, if_pos ⟨rfl, rfl⟩, same.symm, written⟩
      · next other =>
          obtain ⟨otherService, otherId, found, listed, rfl, written⟩ := shows.stored.mp stored
          have differs : ¬ (otherService = serviceName ∧ otherId = nodeId) := by
            rintro ⟨rfl, rfl⟩
            exact other rfl
          exact ⟨otherService, otherId, found, (if_neg differs).trans listed, rfl, written⟩
    · rintro ⟨otherService, otherId, found, listed, rfl, rfl⟩
      unfold Directory.set at listed
      split at listed
      · next same => rw [if_pos (by rw [same.1, same.2]), listed, Option.map_some]
      · next differs =>
          -- the key of a plain pair belongs to no other pair
          rw [if_neg fun same => differs ((shows.plain listed).nodeKey_inj.mp same)]
          exact shows.stored.mpr ⟨otherService, otherId, found, listed, rfl, rfl⟩

theorem EtcdShows.registerService (shows : EtcdShows json r d) {node : RegistryNode}
    (plain : Plain node.serviceName node.nodeId) :
    EtcdShows json (r.registerService json memory node).1
      (d.set node.serviceName node.nodeId (some node)) :=
  shows.set (fun _ => plain) (nodeKey_registerService node) (lookup_registerService node)

/-- Any pair may be deregistered: a key with another split is no key of a plain pair. -/
theorem EtcdShows.deregisterService (shows : EtcdShows json r d) (serviceName nodeId : Bytes) :
    EtcdShows json (r.deregisterService json memory serviceName nodeId).1
      (d.set serviceName nodeId none) :=
  shows.set nofun (nodeKey_deregisterService serviceName nodeId)
    (lookup_deregisterService serviceName nodeId)

theorem EtcdShows.after (shows : EtcdShows json r d) {change : Change}
    (plain : change.Registers Plain) :
    EtcdShows json (onEtcd json memory r change) (d.after change) := by
  cases change with
  | registerService node nowTs => exact shows.registerService plain
  | deregisterService serviceName nodeId => exact shows.deregisterService serviceName nodeId

theorem EtcdShows.mem_endpoints (shows : EtcdShows json r d) (faithful : json.Faithful)
    {serviceName : Bytes} {entry : Bytes × Bytes × UInt16} :
    entry ∈ endpoints (r.discover json memory serviceName) ↔ d.Lists serviceName entry := by
  rw [EtcdRegistry.mem_endpoints]
  constructor
  · rintro ⟨node, member, shown⟩
    obtain ⟨nodeId, value, stored, parsed⟩ := mem_discover.mp member
    obtain ⟨otherService, otherId, found, listed, same, rfl⟩ := shows.stored.mp stored
    obtain ⟨rfl, rfl⟩ := (shows.plain listed).nodeKey_inj.mp same
    rw [faithful.jsonToNode] at parsed
    refine ⟨otherId, ?_⟩
    rw [listed, Option.map_some, parsed, shown]
  · rintro ⟨nodeId, listed⟩
    obtain ⟨node, found, shown⟩ := Option.map_eq_some_iff.mp listed
    have stored := shows.stored.mpr ⟨serviceName, nodeId, node, found, rfl, rfl⟩
    exact ⟨node, mem_discover.mpr ⟨nodeId, _, stored, faithful.jsonToNode memory node⟩, shown⟩

/-- Both registries follow the directory through a sequence of calls. -/
theorem shows_after {services : ServiceMap} (etcd : EtcdShows json r d)
    (table : MemoryShows services d) {changes : List Change}
    (plain : ∀ change ∈ changes, change.Registers Plain) :
    EtcdShows json (changes.foldl (onEtcd json memory) r) (changes.foldl Directory.after d) ∧
      MemoryShows (changes.foldl onMemory services) (changes.foldl Directory.after d) := by
  induction changes generalizing r services d with
  | nil => exact ⟨etcd, table⟩
  | cons change changes ih =>
      exact ih (etcd.after (plain change List.mem_cons_self)) (table.after change)
        fun later member => plain later (List.mem_cons_of_mem _ member)

theorem endpoints_eq_of_plain (faithful : json.Faithful) (keyPrefix : Bytes)
    {changes : List Change} (plain : ∀ change ∈ changes, change.Registers Plain)
    (serviceName : Bytes) :
    endpoints ((etcdAfter json memory keyPrefix changes).discover json memory serviceName) =
      endpoints (MemoryRegistry.discover (memoryAfter changes) serviceName) := by
  obtain ⟨etcd, table⟩ := @shows_after json memory _ _ _ (etcdShows_empty json keyPrefix)
    memoryShows_empty changes plain
  ext entry
  exact (etcd.mem_endpoints faithful).trans table.mem_endpoints.symm

end Refinement

/-! ## Names with slashes -/

/-- The key of a pair with a slash has another split. -/
theorem nodeKey_of_not_plain (r : EtcdRegistry) {serviceName nodeId : Bytes}
    (slashed : ¬ Plain serviceName nodeId) :
    ∃ otherService otherId, otherService ≠ serviceName ∧
      r.nodeKey otherService otherId = r.nodeKey serviceName nodeId := by
  by_cases inService : slash ∈ serviceName
  · obtain ⟨first, second, rfl⟩ := List.append_of_mem inService
    refine ⟨first, second ++ slash :: nodeId, ?_, ?_⟩
    · exact fun same => List.cons_ne_nil _ _ (List.self_eq_append_right.mp same)
    · simp only [nodeKey, List.append_assoc, List.cons_append]
  · have inId : slash ∈ nodeId := by
      by_contra absent
      exact slashed ⟨inService, absent⟩
    obtain ⟨first, second, rfl⟩ := List.append_of_mem inId
    refine ⟨serviceName ++ slash :: first, second, ?_, ?_⟩
    · exact fun same => List.cons_ne_nil _ _ (List.append_right_eq_self.mp same)
    · simp only [nodeKey, List.append_assoc, List.cons_append]

/-- The first registration of such a pair shows up under a service that the
in-memory registry does not know. -/
theorem registration_shows_elsewhere {json : Json} (faithful : json.Faithful)
    (memory : UInt16 × UInt64 × UInt64) (keyPrefix : Bytes) {node : RegistryNode} (nowTs : UInt64)
    (slashed : ¬ Plain node.serviceName node.nodeId) :
    ∃ serviceName,
      endpoints ((etcdAfter json memory keyPrefix [.registerService node nowTs]).discover json
          memory serviceName) ≠
        endpoints (MemoryRegistry.discover (memoryAfter [.registerService node nowTs])
          serviceName) := by
  obtain ⟨serviceName, nodeId, differs, sameKey⟩ :=
    nodeKey_of_not_plain ⟨keyPrefix, ∅, []⟩ slashed
  refine ⟨serviceName, fun same => ?_⟩
  have inEtcd : endpoint node ∈ endpoints ((etcdAfter json memory keyPrefix
      [.registerService node nowTs]).discover json memory serviceName) := by
    refine mem_endpoints.mpr ⟨node, mem_discover.mpr ⟨nodeId, nodeToJson json node, ?_,
      faithful.jsonToNode memory node⟩, rfl⟩
    rw [etcdAfter, List.foldl_cons, List.foldl_nil, onEtcd, nodeKey_registerService,
      lookup_registerService, if_pos sameKey]
  rw [same] at inEtcd
  obtain ⟨nodeId, listed⟩ := (memoryShows_empty.after (.registerService node nowTs)).mem_endpoints.mp
    inEtcd
  rw [Directory.after, Directory.set, if_neg fun both => differs both.1] at listed
  cases listed

/-- Over a family of names, the registries agree after every sequence of calls that
registers names of the family iff no name of the family has a slash. -/
theorem registries_agree_iff (json : Json) (faithful : json.Faithful)
    (memory : UInt16 × UInt64 × UInt64) (keyPrefix : Bytes) (Allowed : Bytes → Bytes → Prop) :
    (∀ changes : List Change, (∀ change ∈ changes, change.Registers Allowed) → ∀ serviceName,
      endpoints ((etcdAfter json memory keyPrefix changes).discover json memory serviceName) =
        endpoints (MemoryRegistry.discover (memoryAfter changes) serviceName)) ↔
      ∀ serviceName nodeId, Allowed serviceName nodeId → slash ∉ serviceName ∧ slash ∉ nodeId := by
  constructor
  · intro agree serviceName nodeId allowed
    by_contra slashed
    let node : RegistryNode := ⟨serviceName, nodeId, [], 0, 0, 0⟩
    have slashed : ¬ Plain node.serviceName node.nodeId := slashed
    obtain ⟨elsewhere, differs⟩ :=
      registration_shows_elsewhere faithful memory keyPrefix 0 slashed
    refine differs (agree [.registerService node 0] ?_ elsewhere)
    intro change member
    rw [List.mem_singleton.mp member]
    exact allowed
  · intro plain changes allowed serviceName
    refine endpoints_eq_of_plain faithful keyPrefix (fun change member => ?_) serviceName
    have registers := allowed change member
    cases change with
    | registerService node nowTs => exact plain node.serviceName node.nodeId registers
    | deregisterService otherService otherId => exact trivial

/-! ## JSON texts of flat objects -/

def hexDigit (n : UInt8) : UInt8 := if n < 10 then 0x30 + n else 0x57 + n

def hexValue (digit : UInt8) : UInt8 := if digit < 0x3a then digit - 0x30 else digit - 0x57

/-- A string literal behind its first quote: quotes, backslashes and control characters are
written by their codes. -/
def writeString : Bytes → Bytes
  | [] => [0x22]
  | byte :: rest =>
      if byte = 0x22 ∨ byte = 0x5c ∨ byte < 0x20 then
        0x5c :: 0x75 :: 0x30 :: 0x30 :: hexDigit (byte / 16) :: hexDigit (byte % 16) ::
          writeString rest
      else byte :: writeString rest

def readString : Bytes → Option (Bytes × Bytes)
  | 0x22 :: rest => some ([], rest)
  | 0x5c :: 0x75 :: 0x30 :: 0x30 :: high :: low :: rest =>
      (readString rest).map fun found => ((hexValue high * 16 + hexValue low) :: found.1, found.2)
  | 0x5c :: _ => none
  | byte :: rest => (readString rest).map fun found => (byte :: found.1, found.2)
  | [] => none

theorem readString_writeString (content rest : Bytes) :
    readString (writeString content ++ rest) = some (content, rest) := by
  have code : ∀ byte : UInt8,
      hexValue (hexDigit (byte / 16)) * 16 + hexValue (hexDigit (byte % 16)) = byte := by
    have every : ∀ n < 256, hexValue (hexDigit (.ofNat n / 16)) * 16 +
        hexValue (hexDigit (.ofNat n % 16)) = .ofNat n := by
      decide +kernel
    intro byte
    have own := every byte.toNat byte.toNat_lt
    rwa [UInt8.ofNat_toNat] at own
  induction content with
  | nil => rfl
  | cons byte content ih =>
      rw [writeString]
      split
      · simp only [List.cons_append, readString, ih, Option.map_some, code]
      · next plain =>
          obtain ⟨noQuote, noBackslash, _⟩ := not_or.mp plain |>.imp id not_or.mp
          rw [List.cons_append, readString, ih, Option.map_some]
          · exact noQuote
          · intro _ _ _ same
            exact absurd same noBackslash
          · exact noBackslash

def readNumber (bytes : Bytes) : Nat × Bytes :=
  (ofDecimal (bytes.takeWhile isDigit), bytes.dropWhile isDigit)

theorem readNumber_decimal (n : Nat) {byte : UInt8} (stop : isDigit byte = false) (rest : Bytes) :
    readNumber (decimal n ++ byte :: rest) = (n, byte :: rest) := by
  have digits : ∀ other ∈ decimal n, isDigit other = true := fun _ => isDigit_of_mem_decimal
  rw [readNumber, List.takeWhile_append_of_pos digits, List.dropWhile_append_of_pos digits,
    List.takeWhile_cons_of_neg (by simp [stop]), List.dropWhile_cons_of_neg (by simp [stop]),
    List.append_nil, ofDecimal_decimal]

def writeValue : JsonValue → Bytes
  | .string value => 0x22 :: writeString value
  | .number value => decimal value

def readValue : Bytes → Option (JsonValue × Bytes)
  | 0x22 :: rest => (readString rest).map fun found => (.string found.1, found.2)
  | byte :: rest =>
      if isDigit byte then
        let found := readNumber (byte :: rest)
        some (.number found.1, found.2)
      else none
  | [] => none

theorem readValue_writeValue (value : JsonValue) {byte : UInt8} (stop : isDigit byte = false)
    (rest : Bytes) : readValue (writeValue value ++ byte :: rest) = some (value, byte :: rest) := by
  cases value with
  | string value =>
      rw [writeValue, List.cons_append, readValue, readString_writeString]
      rfl
  | number n =>
      have read := readNumber_decimal n stop rest
      rw [writeValue]
      cases digits : decimal n with
      | nil => exact absurd digits (decimal_ne_nil n)
      | cons first others =>
          have digit : isDigit first = true :=
            isDigit_of_mem_decimal (digits ▸ List.mem_cons_self ..)
          rw [digits, List.cons_append] at read
          rw [List.cons_append, readValue, if_pos digit, read]
          rintro rfl
          exact absurd digit (by decide)

/-- The members of an object, each behind a comma, and the brace that closes it. -/
def writeMembers : List (Σ _ : Bytes, JsonValue) → Bytes
  | [] => [0x7d]
  | entry :: rest =>
      0x2c :: 0x22 :: (writeString entry.1 ++ 0x3a :: (writeValue entry.2 ++ writeMembers rest))

def readMembers : Nat → Bytes → Option (List (Σ _ : Bytes, JsonValue))
  | _, [0x7d] => some []
  | fuel + 1, 0x2c :: 0x22 :: bytes =>
      match readString bytes with
      | some (key, 0x3a :: bytes) =>
          (readValue bytes).bind fun value =>
            (readMembers fuel value.2).map fun members => ⟨key, value.1⟩ :: members
      | _ => none
  | _, _ => none

theorem readMembers_writeMembers {entries : List (Σ _ : Bytes, JsonValue)} {fuel : Nat}
    (enough : entries.length ≤ fuel) : readMembers fuel (writeMembers entries) = some entries := by
  induction entries generalizing fuel with
  | nil => cases fuel <;> rfl
  | cons entry rest ih =>
      cases fuel with
      | zero => cases enough
      | succ fuel =>
          obtain ⟨byte, bytes, stops, more⟩ : ∃ byte bytes, isDigit byte = false ∧
              writeMembers rest = byte :: bytes := by
            cases rest with
            | nil => exact ⟨_, _, by decide, rfl⟩
            | cons => exact ⟨_, _, by decide, rfl⟩
          rw [writeMembers, readMembers, readString_writeString]
          change (readValue (writeValue entry.2 ++ writeMembers rest)).bind _ = _
          rw [more, readValue_writeValue _ stops, Option.bind_some, ← more,
            ih (Nat.le_of_succ_le_succ enough)]
          rfl

theorem length_le_writeMembers (entries : List (Σ _ : Bytes, JsonValue)) :
    entries.length ≤ (writeMembers entries).length := by
  induction entries with
  | nil => exact Nat.zero_le _
  | cons entry rest ih =>
      simp only [writeMembers, List.length_cons, List.length_append]
      omega

/-- The first member of an object has no comma. -/
def nodeJson : Json where
  dump j := 0x7b :: if j.entries = [] then [0x7d] else (writeMembers j.entries).tail
  parse
    | 0x7b :: rest =>
        (readMembers (rest.length + 1) (if rest = [0x7d] then rest else 0x2c :: rest)).bind
          fun members => if distinct : members.keys.Nodup then some ⟨members, distinct⟩ else none
    | _ => none

theorem nodeJson_parse_dump (j : JsonObject) : nodeJson.parse (nodeJson.dump j) = some j := by
  obtain ⟨entries, distinct⟩ := j
  cases entries with
  | nil => rfl
  | cons entry rest =>
      have read := readMembers_writeMembers (length_le_writeMembers (entry :: rest))
      change (readMembers _ (if (writeMembers (entry :: rest)).tail = [0x7d] then _
        else _)).bind _ = _
      rw [if_neg (by simp)]
      exact (congrArg (Option.bind · _) read).trans (dif_pos distinct)

theorem nodeJson_faithful : nodeJson.Faithful := fun node => nodeJson_parse_dump (nodeToObject node)

theorem registries_agree_iff_nodeJson :
    (∀ changes : List Change,
      (∀ change ∈ changes, change.Registers fun serviceName nodeId =>
        serviceName = text "EchoService" ∧ nodeId = text "node1") → ∀ serviceName,
      endpoints ((etcdAfter nodeJson (0, 0, 0) (text "/rpc/services") changes).discover nodeJson
          (0, 0, 0) serviceName) =
        endpoints (MemoryRegistry.discover (memoryAfter changes) serviceName)) ↔
      ∀ serviceName nodeId, serviceName = text "EchoService" ∧ nodeId = text "node1" →
        slash ∉ serviceName ∧ slash ∉ nodeId :=
  registries_agree_iff nodeJson nodeJson_faithful (0, 0, 0) (text "/rpc/services") _

/-- Node `b/c` of service `a` is also found as a node of service `a/b`. -/
theorem slashed_id_found_elsewhere :
    let changes : List Change :=
      [.registerService ⟨text "a", text "b/c", text "127.0.0.1", 9000, 0, 0⟩ 5]
    endpoints ((etcdAfter nodeJson (0, 0, 0) (text "/rpc/services") changes).discover nodeJson
        (0, 0, 0) (text "a/b")) = {(text "b/c", text "127.0.0.1", 9000)} ∧
      endpoints (MemoryRegistry.discover (memoryAfter changes) (text "a/b")) = ∅ := by
  decide +kernel

end EtcdRegistry

end RpcFramework
