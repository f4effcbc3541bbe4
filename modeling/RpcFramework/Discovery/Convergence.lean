import RpcFramework.Discovery.MemoryRegistry
import RpcFramework.Lib.StepRun

/-!
# What the observers of the registry have seen

Threads operate on one `MemoryRegistry` whose `changeCallback_` is set.  Each
operation updates the table under `mutex_`; its thread delivers the copied node
lists afterwards, outside the lock.  Nothing orders the deliveries of different
threads, so an old list can be delivered behind the current one and stay.
-/

namespace RpcFramework.MemoryRegistry

open Observers StepRun

variable {Thread : Type}

/-- The registry with the deliveries under way, and the services whose node set
was changed. -/
structure Observed (Thread : Type) where
  board : Board Thread Bytes (List RegistryNode) ServiceMap
  changed : List Bytes

inductive Event (Thread : Type)
  | registerService (thread : Thread) (node : RegistryNode) (nowTs : UInt64)
  | deregisterService (thread : Thread) (serviceName nodeId : Bytes)
  | cleanupExpiredNodes (thread : Thread) (timeoutSeconds : Int32) (now : UInt64)
  | deliver (thread : Thread)

namespace Observed

def initial : Observed Thread := ⟨.initial ∅, []⟩

section Steps

variable [DecidableEq Thread]

/-- A thread that has returned from its last operation runs the locked part of the
next one. -/
def locked (s : Observed Thread) (thread : Thread) (services : ServiceMap)
    (notifications : List Notification) (changed : List Bytes) : Option (Observed Thread) :=
  if (s.board.pending thread).isEmpty then
    some ⟨s.board.update thread services notifications, changed ++ s.changed⟩
  else none

def step (s : Observed Thread) : Event Thread → Option (Observed Thread)
  | .registerService thread node nowTs =>
      let result := registerService s.board.store node nowTs
      s.locked thread result.1 result.2 [node.serviceName]
  | .deregisterService thread serviceName nodeId =>
      let result := deregisterService s.board.store serviceName nodeId
      s.locked thread result.1 result.2.1 (if result.2.2 then [serviceName] else [])
  | .cleanupExpiredNodes thread timeoutSeconds now =>
      let result := cleanupExpiredNodes s.board.store timeoutSeconds now
      s.locked thread result.1 result.2 (expiredServices s.board.store timeoutSeconds now)
  | .deliver thread => (s.board.deliver thread).map fun board => ⟨board, s.changed⟩

end Steps

/-- The node list of the service that `changeCallback_` was called with last. -/
def lastDelivered (s : Observed Thread) (serviceName : Bytes) : Option (List RegistryNode) :=
  (s.board.lastDelivered serviceName).map Notice.value

/-- No list of a service that differs from its newest one is delivered behind that one. -/
def NewestLast (s : Observed Thread) : Event Thread → Prop
  | .deliver thread => s.board.NewestLast thread
  | _ => True

structure Inv (s : Observed Thread) : Prop where
  board : s.board.Inv discover
  changed : ∀ serviceName ∈ s.changed, s.board.newest serviceName ≠ 0

theorem inv_initial : (initial : Observed Thread).Inv :=
  ⟨Board.inv_initial _, nofun⟩

variable [DecidableEq Thread] {s next : Observed Thread}

theorem Inv.locked (inv : s.Inv) {thread : Thread} {services : ServiceMap}
    {notifications : List Notification} {changed : List Bytes}
    (shown : Board.Snapshots discover s.board.store services notifications)
    (notified : ∀ serviceName ∈ changed, serviceName ∈ notifications.map Prod.fst)
    (taken : s.locked thread services notifications changed = some next) : next.Inv := by
  obtain ⟨idle, moved⟩ := Option.ite_none_right_eq_some.mp taken
  cases moved
  refine ⟨inv.board.update (List.isEmpty_iff.mp idle) shown, ?_⟩
  intro serviceName member
  unfold Board.update
  dsimp only
  split
  · exact Nat.succ_ne_zero _
  · next silent =>
      rcases List.mem_append.mp member with new | old
      · exact absurd (notified serviceName new) silent
      · exact inv.changed serviceName old

theorem Inv.step {event : Event Thread} (inv : s.Inv) (newestLast : s.NewestLast event)
    (taken : s.step event = some next) : next.Inv := by
  cases event with
  | registerService thread node nowTs =>
      exact inv.locked (registerService_snapshots ..) (fun _ member => member) taken
  | deregisterService thread serviceName nodeId =>
      refine inv.locked (deregisterService_snapshots ..) ?_ taken
      intro changed member
      split at member
      · next removed =>
          cases List.mem_singleton.mp member
          exact deregisterService_notified removed
      · cases member
  | cleanupExpiredNodes thread timeoutSeconds now =>
      exact inv.locked (cleanupExpiredNodes_snapshots ..)
        (fun _ member => expiredServices_notified member) taken
  | deliver thread =>
      obtain ⟨board, delivered, rfl⟩ := Option.map_eq_some_iff.mp taken
      have kept : board.newest = s.board.newest := Board.newest_deliver delivered
      refine ⟨inv.board.deliver newestLast delivered, ?_⟩
      intro serviceName member
      rw [kept]
      exact inv.changed serviceName member

/--
Observers converge to the registry: when all deliveries are done, the last list
delivered for each changed service is what `discover` returns, as long as no
other list of a service was delivered behind its newest one.
-/
theorem observers_converge {events : List (Event Thread)} {final : Observed Thread}
    (newestLast : Along step NewestLast (initial : Observed Thread) events)
    (reached : run? step initial events = some final)
    (done : ∀ thread, final.board.pending thread = []) :
    ∀ serviceName ∈ final.changed,
      final.lastDelivered serviceName = some (discover final.board.store serviceName) := by
  have kept : ∀ (s : Observed Thread) event next, s.Inv → s.NewestLast event →
      s.step event = some next → next.Inv := fun _ _ _ inv inOrder taken => inv.step inOrder taken
  have inv := run?_invariant_along kept inv_initial newestLast reached
  intro serviceName member
  exact inv.board.converged done (inv.changed serviceName member)

def sampleNode (nodeId : UInt8) : RegistryNode :=
  ⟨[0x73], [nodeId], [0x68], 8080, 0, 0⟩

/-- Two threads register a node each, and deliver in that order. -/
def orderedRun : List (Event Bool) :=
  [.registerService false (sampleNode 1) 5, .registerService true (sampleNode 2) 6,
    .deliver false, .deliver true]

theorem observers_converge_orderedRun :
    ∃ final : Observed Bool, run? step initial orderedRun = some final ∧
      [0x73] ∈ final.changed ∧
      final.lastDelivered [0x73] = some (discover final.board.store [0x73]) := by
  have reached : run? step (initial : Observed Bool) orderedRun = some _ := rfl
  refine ⟨_, reached, List.mem_cons_self .., ?_⟩
  refine observers_converge ?_ reached ?_ _ (List.mem_cons_self ..)
  · refine .cons trivial rfl (.cons trivial rfl (.cons ?_ rfl (.cons ?_ rfl trivial)))
    · rintro notice rest ⟨⟩ other member
      cases member
    · rintro notice rest ⟨⟩ other member same newest
      cases List.mem_singleton.mp member
      cases newest
  · intro thread
    cases thread with
    | false => rfl
    | true => rfl

/-- One thread registers a node and another one removes it; the list of the first
is delivered last. -/
def staleRun : List (Event Bool) :=
  [.registerService false (sampleNode 1) 5, .deregisterService true [0x73] [1],
    .deliver true, .deliver false]

/-- All deliveries are done, the service has no nodes left, and the observer still
has the removed one. -/
theorem stale_list_stays :
    ∃ final : Observed Bool, run? step initial staleRun = some final ∧
      (∀ thread, final.board.pending thread = []) ∧ [0x73] ∈ final.changed ∧
      discover final.board.store [0x73] = [] ∧
      final.lastDelivered [0x73] = some [storedNode (sampleNode 1) 5] := by
  refine ⟨_, rfl, ?_, List.mem_cons_self .., rfl, rfl⟩
  intro thread
  cases thread with
  | false => rfl
  | true => rfl

end Observed

end RpcFramework.MemoryRegistry
