import Mathlib.Data.List.AList
import RpcFramework.Network.Buffer
import RpcFramework.Lib.Observers

/-!
# The in-memory registry

`MemoryRegistry` keeps the nodes of each service.  `registerService`,
`deregisterService` and `cleanupExpiredNodes` update the table under `mutex_` and
copy there the node lists that are handed to `changeCallback_` after the lock has
been released.  An operation is modelled by the table that it leaves and the
notifications that it has copied; a table never keeps a service without nodes
unless it was put there.
-/

namespace RpcFramework.MemoryRegistry

open Observers

structure RegistryNode where
  serviceName : Bytes
  nodeId : Bytes
  host : Bytes
  port : UInt16
  registerTime : UInt64
  lastHeartbeat : UInt64
  deriving DecidableEq, Repr

abbrev NodeMap := AList (fun _ : Bytes => RegistryNode)

abbrev ServiceMap := AList (fun _ : Bytes => NodeMap)

/-- A service and its node list, as they are handed to `changeCallback_`. -/
abbrev Notification := Bytes × List RegistryNode

/-- The loop that copies the nodes of a service. -/
def nodes (nodeMap : NodeMap) : List RegistryNode :=
  nodeMap.entries.map Sigma.snd

def discover (services : ServiceMap) (serviceName : Bytes) : List RegistryNode :=
  match services.lookup serviceName with
  | some nodeMap => nodes nodeMap
  | none => []

/-- `nowTs` is the reading of the steady clock, in seconds. -/
def storedNode (node : RegistryNode) (nowTs : UInt64) : RegistryNode :=
  { node with
    registerTime := if node.registerTime = 0 then nowTs else node.registerTime
    lastHeartbeat := nowTs }

def registerService (services : ServiceMap) (node : RegistryNode) (nowTs : UInt64) :
    ServiceMap × List Notification :=
  let nodeMap := (services.lookup node.serviceName).getD ∅
  let nodeMap := nodeMap.insert node.nodeId (storedNode node nowTs)
  (services.insert node.serviceName nodeMap, [(node.serviceName, nodes nodeMap)])

/-- The table, the notifications and what `deregisterService` returns. -/
def deregisterService (services : ServiceMap) (serviceName nodeId : Bytes) :
    ServiceMap × List Notification × Bool :=
  match services.lookup serviceName with
  | none => (services, [], false)
  | some nodeMap =>
      match nodeMap.lookup nodeId with
      | none => (services, [], false)
      | some _ =>
          let nodeMap := nodeMap.erase nodeId
          let notifications := [(serviceName, nodes nodeMap)]
          if nodeMap.entries = [] then (services.erase serviceName, notifications, true)
          else (services.insert serviceName nodeMap, notifications, true)

/-- The node is changed where it is. -/
def heartbeat (services : ServiceMap) (serviceName nodeId : Bytes) (nowTs : UInt64) :
    ServiceMap × Bool :=
  match services.lookup serviceName with
  | none => (services, false)
  | some nodeMap =>
      match nodeMap.lookup nodeId with
      | none => (services, false)
      | some node =>
          let nodeMap := nodeMap.replace nodeId { node with lastHeartbeat := nowTs }
          (services.replace serviceName nodeMap, true)

/-- `now - lastHeartbeat > timeoutSeconds`: `lastHeartbeat` is unsigned, and both
other operands are converted. -/
def expired (now : UInt64) (timeoutSeconds : Int32) (node : RegistryNode) : Bool :=
  timeoutSeconds.toInt64.toUInt64 < now - node.lastHeartbeat

def removeExpired (now : UInt64) (timeoutSeconds : Int32) (nodeMap : NodeMap) : NodeMap where
  entries := nodeMap.entries.filter fun entry => !expired now timeoutSeconds entry.2
  nodupKeys := List.NodupKeys.sublist List.filter_sublist nodeMap.nodupKeys

/-- The loop over the services: what is left of the table, and the notifications. -/
def sweep (now : UInt64) (timeoutSeconds : Int32) :
    List (Sigma fun _ : Bytes => NodeMap) → List (Sigma fun _ : Bytes => NodeMap) × List Notification
  | [] => ([], [])
  | ⟨serviceName, nodeMap⟩ :: rest =>
      let nodeMap := removeExpired now timeoutSeconds nodeMap
      let swept := sweep now timeoutSeconds rest
      if nodeMap.entries = [] then (swept.1, (serviceName, []) :: swept.2)
      else (⟨serviceName, nodeMap⟩ :: swept.1, (serviceName, nodes nodeMap) :: swept.2)

theorem sweep_keys_sublist (now : UInt64) (timeoutSeconds : Int32)
    (services : List (Sigma fun _ : Bytes => NodeMap)) :
    (sweep now timeoutSeconds services).1.keys.Sublist services.keys := by
  induction services with
  | nil => exact List.Sublist.refl _
  | cons service rest kept =>
      unfold sweep
      dsimp only
      split
      · exact kept.cons service.1
      · exact kept.cons_cons service.1

def cleanupExpiredNodes (services : ServiceMap) (timeoutSeconds : Int32) (now : UInt64) :
    ServiceMap × List Notification :=
  (⟨(sweep now timeoutSeconds services.entries).1,
      (sweep_keys_sublist now timeoutSeconds services.entries).nodup services.nodupKeys⟩,
    (sweep now timeoutSeconds services.entries).2)

/-- The services of which `cleanupExpiredNodes` removes a node. -/
def expiredServices (services : ServiceMap) (timeoutSeconds : Int32) (now : UInt64) : List Bytes :=
  (services.entries.filter fun service =>
    service.2.entries.any fun entry => expired now timeoutSeconds entry.2).map Sigma.fst

/-! ## The notifications show the table -/

theorem discover_insert (services : ServiceMap) (serviceName : Bytes) (nodeMap : NodeMap) :
    discover (services.insert serviceName nodeMap) serviceName = nodes nodeMap := by
  rw [discover, AList.lookup_insert]

theorem discover_insert_ne {services : ServiceMap} {serviceName other : Bytes}
    (differs : other ≠ serviceName) (nodeMap : NodeMap) :
    discover (services.insert serviceName nodeMap) other = discover services other := by
  rw [discover, discover, AList.lookup_insert_ne differs]

theorem discover_erase (services : ServiceMap) (serviceName : Bytes) :
    discover (services.erase serviceName) serviceName = [] := by
  rw [discover, AList.lookup_erase]

theorem discover_erase_ne {services : ServiceMap} {serviceName other : Bytes}
    (differs : other ≠ serviceName) :
    discover (services.erase serviceName) other = discover services other := by
  rw [discover, discover, AList.lookup_erase_ne differs]

theorem registerService_snapshots (services : ServiceMap) (node : RegistryNode) (nowTs : UInt64) :
    Board.Snapshots discover services (registerService services node nowTs).1
      (registerService services node nowTs).2 := by
  constructor
  · intro snapshot member
    rw [registerService, List.mem_singleton] at member
    rw [member]
    exact (discover_insert ..).symm
  · intro other absent
    exact discover_insert_ne (fun same => absent (List.mem_singleton.mpr same)) _

theorem deregisterService_snapshots (services : ServiceMap) (serviceName nodeId : Bytes) :
    Board.Snapshots discover services (deregisterService services serviceName nodeId).1
      (deregisterService services serviceName nodeId).2.1 := by
  unfold deregisterService
  split
  · exact ⟨nofun, fun _ _ => rfl⟩
  · split
    · exact ⟨nofun, fun _ _ => rfl⟩
    · dsimp only
      split
      · next empty =>
          constructor
          · intro snapshot member
            rw [List.mem_singleton] at member
            rw [member, discover_erase, nodes, empty, List.map_nil]
          · intro other absent
            exact discover_erase_ne fun same => absent (List.mem_singleton.mpr same)
      · constructor
        · intro snapshot member
          rw [List.mem_singleton] at member
          rw [member]
          exact (discover_insert ..).symm
        · intro other absent
          exact discover_insert_ne (fun same => absent (List.mem_singleton.mpr same)) _

theorem deregisterService_notified {services : ServiceMap} {serviceName nodeId : Bytes}
    (removed : (deregisterService services serviceName nodeId).2.2 = true) :
    serviceName ∈ (deregisterService services serviceName nodeId).2.1.map Prod.fst := by
  revert removed
  unfold deregisterService
  split
  · exact nofun
  · split
    · exact nofun
    · dsimp only
      split
      · exact fun _ => List.mem_singleton.mpr rfl
      · exact fun _ => List.mem_singleton.mpr rfl

/-- Every service is notified, with or without a removed node. -/
theorem sweep_notified (now : UInt64) (timeoutSeconds : Int32)
    (services : List (Sigma fun _ : Bytes => NodeMap)) :
    (sweep now timeoutSeconds services).2.map Prod.fst = services.keys := by
  induction services with
  | nil => rfl
  | cons service rest notified =>
      unfold sweep
      dsimp only
      split
      · rw [List.map_cons, notified, List.keys_cons]
      · rw [List.map_cons, notified, List.keys_cons]

theorem sweep_current (now : UInt64) (timeoutSeconds : Int32)
    {services : List (Sigma fun _ : Bytes => NodeMap)} (distinct : services.NodupKeys)
    {notification : Notification} (notified : notification ∈ (sweep now timeoutSeconds services).2) :
    notification.2 =
      (((sweep now timeoutSeconds services).1.dlookup notification.1).map nodes).getD [] := by
  induction services with
  | nil => cases notified
  | cons service rest ih =>
      obtain ⟨fresh, distinct⟩ := List.nodupKeys_cons.mp distinct
      -- a notification of the rest is about another service
      have other : ∀ earlier ∈ (sweep now timeoutSeconds rest).2, earlier.1 ≠ service.1 := by
        intro earlier member same
        have key : earlier.1 ∈ (sweep now timeoutSeconds rest).2.map Prod.fst :=
          List.mem_map_of_mem member
        rw [sweep_notified, same] at key
        exact fresh key
      have gone : (sweep now timeoutSeconds rest).1.dlookup service.1 = none := by
        rw [List.dlookup_eq_none]
        exact fun member => fresh ((sweep_keys_sublist now timeoutSeconds rest).subset member)
      unfold sweep at notified ⊢
      dsimp only at notified ⊢
      split at notified
      · next empty =>
          rw [if_pos empty]
          rcases List.mem_cons.mp notified with rfl | member
          · rw [gone, Option.map_none, Option.getD_none]
          · exact ih distinct member
      · next kept =>
          rw [if_neg kept]
          rcases List.mem_cons.mp notified with rfl | member
          · rw [List.dlookup_cons_eq, Option.map_some, Option.getD_some]
          · have differs : notification.1 ≠
                (⟨service.1, removeExpired now timeoutSeconds service.2⟩ :
                  Sigma fun _ : Bytes => NodeMap).1 := other _ member
            rw [List.dlookup_cons_ne _ _ differs]
            exact ih distinct member

theorem discover_eq_getD (services : ServiceMap) (serviceName : Bytes) :
    discover services serviceName = ((services.lookup serviceName).map nodes).getD [] := by
  rw [discover]
  cases services.lookup serviceName with
  | none => rfl
  | some nodeMap => rfl

theorem cleanupExpiredNodes_snapshots (services : ServiceMap) (timeoutSeconds : Int32)
    (now : UInt64) :
    Board.Snapshots discover services (cleanupExpiredNodes services timeoutSeconds now).1
      (cleanupExpiredNodes services timeoutSeconds now).2 := by
  constructor
  · intro snapshot member
    rw [discover_eq_getD]
    exact sweep_current now timeoutSeconds services.nodupKeys member
  · intro other absent
    have before : other ∉ services.entries.keys := by
      rw [← sweep_notified now timeoutSeconds services.entries]
      exact absent
    have after : other ∉ (sweep now timeoutSeconds services.entries).1.keys := fun member =>
      before ((sweep_keys_sublist now timeoutSeconds services.entries).subset member)
    have absentBefore : services.lookup other = none := List.dlookup_eq_none.mpr before
    have absentAfter : (cleanupExpiredNodes services timeoutSeconds now).1.lookup other = none :=
      List.dlookup_eq_none.mpr after
    rw [discover_eq_getD, discover_eq_getD, absentBefore, absentAfter]

theorem expiredServices_notified {services : ServiceMap} {timeoutSeconds : Int32} {now : UInt64}
    {serviceName : Bytes} (changed : serviceName ∈ expiredServices services timeoutSeconds now) :
    serviceName ∈ (cleanupExpiredNodes services timeoutSeconds now).2.map Prod.fst := by
  have notified := sweep_notified now timeoutSeconds services.entries
  rw [cleanupExpiredNodes, notified]
  obtain ⟨service, member, rfl⟩ := List.mem_map.mp changed
  exact List.mem_keys_of_mem (List.mem_filter.mp member).1

/-! ## Nodes by their names -/

/-- The node that the table keeps for a node id of a service. -/
def lookupNode (services : ServiceMap) (serviceName nodeId : Bytes) : Option RegistryNode :=
  (services.lookup serviceName).bind fun nodeMap => nodeMap.lookup nodeId

theorem mem_discover_iff {services : ServiceMap} {serviceName : Bytes} {node : RegistryNode} :
    node ∈ discover services serviceName ↔
      ∃ nodeId, lookupNode services serviceName nodeId = some node := by
  unfold discover lookupNode
  cases services.lookup serviceName with
  | none => exact ⟨nofun, nofun⟩
  | some nodeMap =>
      constructor
      · intro member
        obtain ⟨entry, kept, rfl⟩ := List.mem_map.mp member
        exact ⟨entry.1, AList.mem_lookup_iff.mpr kept⟩
      · rintro ⟨nodeId, found⟩
        exact List.mem_map.mpr ⟨⟨nodeId, node⟩, AList.mem_lookup_iff.mp found, rfl⟩

theorem lookupNode_registerService (services : ServiceMap) (node : RegistryNode) (nowTs : UInt64)
    (serviceName nodeId : Bytes) :
    lookupNode (registerService services node nowTs).1 serviceName nodeId =
      if serviceName = node.serviceName ∧ nodeId = node.nodeId then some (storedNode node nowTs)
      else lookupNode services serviceName nodeId := by
  unfold registerService lookupNode
  dsimp only
  by_cases service : serviceName = node.serviceName
  · subst service
    rw [AList.lookup_insert, Option.bind_some]
    by_cases same : nodeId = node.nodeId
    · rw [if_pos ⟨rfl, same⟩, same, AList.lookup_insert]
    · rw [if_neg fun both => same both.2, AList.lookup_insert_ne same]
      cases services.lookup node.serviceName with
      | none => rfl
      | some nodeMap => rfl
  · rw [if_neg fun both => service both.1, AList.lookup_insert_ne service]

theorem lookupNode_deregisterService (services : ServiceMap) (serviceName nodeId : Bytes)
    (otherService otherId : Bytes) :
    lookupNode (deregisterService services serviceName nodeId).1 otherService otherId =
      if otherService = serviceName ∧ otherId = nodeId then none
      else lookupNode services otherService otherId := by
  unfold deregisterService lookupNode
  split
  · next absent =>
      split
      · next same => rw [same.1, absent, Option.bind_none]
      · rfl
  · next nodeMap found =>
      split
      · next absent =>
          split
          · next same => rw [same.1, same.2, found, Option.bind_some, absent]
          · rfl
      · dsimp only
        split
        · next empty =>
            -- the last node is removed with its service
            have gone : (nodeMap.erase nodeId).lookup otherId = none := by
              rw [AList.lookup, empty]
              rfl
            by_cases service : otherService = serviceName
            · subst service
              rw [AList.lookup_erase, found, Option.bind_none, Option.bind_some]
              split
              · rfl
              · next other =>
                  have differs : otherId ≠ nodeId := fun same => other ⟨rfl, same⟩
                  rw [← gone, AList.lookup_erase_ne differs]
            · rw [if_neg fun both => service both.1, AList.lookup_erase_ne service]
        · by_cases service : otherService = serviceName
          · subst service
            rw [AList.lookup_insert, found, Option.bind_some, Option.bind_some]
            by_cases same : otherId = nodeId
            · rw [if_pos ⟨rfl, same⟩, same, AList.lookup_erase]
            · rw [if_neg fun both => same both.2, AList.lookup_erase_ne same]
          · rw [if_neg fun both => service both.1, AList.lookup_insert_ne service]

section Entries

variable {Value : Type} {name : Bytes} {entries : List (Sigma fun _ : Bytes => Value)}

theorem dlookup_kreplace (present : name ∈ entries.keys) (other : Bytes) (value : Value) :
    (entries.kreplace name value).dlookup other =
      if other = name then some value else entries.dlookup other := by
  induction entries with
  | nil => cases present
  | cons entry rest ih =>
      obtain ⟨key, old⟩ := entry
      by_cases here : name = key
      · subst here
        have replaced : List.kreplace name value (⟨name, old⟩ :: rest) = ⟨name, value⟩ :: rest := by
          simp [List.kreplace]
        rw [replaced]
        by_cases same : other = name
        · rw [if_pos same, same, List.dlookup_cons_eq]
        · rw [if_neg same, List.dlookup_cons_ne _ _ same, List.dlookup_cons_ne _ _ same]
      · have later : name ∈ rest.keys := (List.mem_cons.mp present).resolve_left here
        have kept : List.kreplace name value (⟨key, old⟩ :: rest) =
            ⟨key, old⟩ :: List.kreplace name value rest := by
          simp [List.kreplace, here]
        rw [kept]
        by_cases same : other = key
        · subst same
          rw [List.dlookup_cons_eq, List.dlookup_cons_eq, if_neg (Ne.symm here)]
        · rw [List.dlookup_cons_ne _ _ same, List.dlookup_cons_ne _ _ same, ih later]

theorem lookup_replace {map : AList fun _ : Bytes => Value} {old : Value}
    (present : map.lookup name = some old) (other : Bytes) (value : Value) :
    (map.replace name value).lookup other =
      if other = name then some value else map.lookup other :=
  dlookup_kreplace (List.dlookup_isSome.mp (Option.isSome_of_eq_some present)) other value

theorem dlookup_filter (distinct : entries.NodupKeys) (keep : Value → Bool) :
    (entries.filter fun entry => keep entry.2).dlookup name =
      (entries.dlookup name).filter keep := by
  induction entries with
  | nil => rfl
  | cons entry rest ih =>
      obtain ⟨key, value⟩ := entry
      obtain ⟨fresh, others⟩ := List.nodupKeys_cons.mp distinct
      rw [List.filter_cons]
      by_cases same : name = key
      · subst same
        rw [List.dlookup_cons_eq, Option.filter_some]
        split
        · rw [List.dlookup_cons_eq]
        · rw [ih others, List.dlookup_eq_none.mpr fresh, Option.filter_none]
      · rw [List.dlookup_cons_ne _ _ same]
        split
        · rw [List.dlookup_cons_ne _ _ same, ih others]
        · exact ih others

end Entries

theorem lookup_removeExpired (now : UInt64) (timeoutSeconds : Int32) (nodeMap : NodeMap)
    (nodeId : Bytes) :
    (removeExpired now timeoutSeconds nodeMap).lookup nodeId =
      (nodeMap.lookup nodeId).filter fun node => !expired now timeoutSeconds node :=
  dlookup_filter nodeMap.nodupKeys fun node => !expired now timeoutSeconds node

/-- Every service loses its expired nodes, and goes with the last of them. -/
theorem sweep_dlookup (now : UInt64) (timeoutSeconds : Int32)
    {services : List (Sigma fun _ : Bytes => NodeMap)} (distinct : services.NodupKeys)
    (serviceName : Bytes) :
    (sweep now timeoutSeconds services).1.dlookup serviceName =
      ((services.dlookup serviceName).map (removeExpired now timeoutSeconds)).filter
        fun nodeMap => !nodeMap.entries.isEmpty := by
  induction services with
  | nil => rfl
  | cons service rest ih =>
      obtain ⟨fresh, others⟩ := List.nodupKeys_cons.mp distinct
      obtain ⟨key, nodeMap⟩ := service
      unfold sweep
      dsimp only
      by_cases same : serviceName = key
      · subst same
        rw [List.dlookup_cons_eq, Option.map_some, Option.filter_some]
        split
        · next empty =>
            rw [ih others, List.dlookup_eq_none.mpr fresh, empty]
            rfl
        · next kept =>
            have nonempty : (removeExpired now timeoutSeconds nodeMap).entries.isEmpty = false :=
              List.isEmpty_eq_false_iff.mpr kept
            rw [List.dlookup_cons_eq, nonempty]
            rfl
      · rw [List.dlookup_cons_ne _ _ same]
        split
        · exact ih others
        · rw [List.dlookup_cons_ne _ _ same, ih others]

theorem lookup_cleanupExpiredNodes (services : ServiceMap) (timeoutSeconds : Int32) (now : UInt64)
    (serviceName : Bytes) :
    (cleanupExpiredNodes services timeoutSeconds now).1.lookup serviceName =
      ((services.lookup serviceName).map (removeExpired now timeoutSeconds)).filter
        fun nodeMap => !nodeMap.entries.isEmpty :=
  sweep_dlookup now timeoutSeconds services.nodupKeys serviceName

theorem lookupNode_cleanupExpiredNodes (services : ServiceMap) (timeoutSeconds : Int32)
    (now : UInt64) (serviceName nodeId : Bytes) :
    lookupNode (cleanupExpiredNodes services timeoutSeconds now).1 serviceName nodeId =
      (lookupNode services serviceName nodeId).filter
        fun node => !expired now timeoutSeconds node := by
  unfold lookupNode
  rw [lookup_cleanupExpiredNodes]
  cases services.lookup serviceName with
  | none => rfl
  | some nodeMap =>
      rw [Option.map_some, Option.filter_some, Option.bind_some, ← lookup_removeExpired]
      split
      · rfl
      · next empty =>
          have entries : (removeExpired now timeoutSeconds nodeMap).entries = [] := by
            simpa using empty
          rw [AList.lookup, entries]
          rfl

theorem lookupNode_heartbeat (services : ServiceMap) (serviceName nodeId : Bytes) (nowTs : UInt64)
    (otherService otherId : Bytes) :
    lookupNode (heartbeat services serviceName nodeId nowTs).1 otherService otherId =
      if otherService = serviceName ∧ otherId = nodeId then
        (lookupNode services otherService otherId).map fun node =>
          { node with lastHeartbeat := nowTs }
      else lookupNode services otherService otherId := by
  unfold heartbeat lookupNode
  split
  · next absent =>
      split
      · next same =>
          rw [same.1, absent]
          rfl
      · rfl
  · next nodeMap found =>
      split
      · next absent =>
          split
          · next same =>
              rw [same.1, same.2, found, Option.bind_some, absent]
              rfl
          · rfl
      · next node present =>
          dsimp only
          rw [lookup_replace found]
          by_cases service : otherService = serviceName
          · subst service
            rw [if_pos rfl, found, Option.bind_some, Option.bind_some, lookup_replace present]
            by_cases same : otherId = nodeId
            · rw [if_pos same, if_pos ⟨rfl, same⟩, same, present, Option.map_some]
            · rw [if_neg same, if_neg fun both => same both.2]
          · rw [if_neg service, if_neg fun both => service both.1]

end RpcFramework.MemoryRegistry
