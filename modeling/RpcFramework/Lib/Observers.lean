import Mathlib.Data.List.Basic
import Mathlib.Logic.Function.Basic

/-!
# Snapshots that are delivered later

Threads update a shared store one at a time.  An update takes snapshots of some
keys, and its thread delivers them to an observer afterwards, one by one, while
other threads go on.  The observer keeps, for each key, the value that was
delivered last.

If no snapshot of a key that differs from the newest one is delivered behind it,
then the observer has the current values as soon as nothing is left to deliver.
-/

namespace Observers

variable {Thread Key Value Store : Type}

/-- A snapshot of the value of a key, with the number of the update that took it. -/
structure Notice (Key Value : Type) where
  key : Key
  value : Value
  version : Nat

/-- The store, the number of updates, the number of the newest snapshot of each
key, what the threads have to deliver, and what was delivered, the latest first. -/
structure Board (Thread Key Value Store : Type) where
  store : Store
  version : Nat
  newest : Key → Nat
  pending : Thread → List (Notice Key Value)
  delivered : List (Notice Key Value)

namespace Board

def initial (store : Store) : Board Thread Key Value Store :=
  ⟨store, 0, fun _ => 0, fun _ => [], []⟩

section Operations

variable [DecidableEq Thread] [DecidableEq Key]

/-- The snapshots of an update, to be delivered by its thread. -/
def notices (version : Nat) (snapshots : List (Key × Value)) : List (Notice Key Value) :=
  snapshots.map fun snapshot => ⟨snapshot.1, snapshot.2, version⟩

def update (b : Board Thread Key Value Store) (thread : Thread) (store : Store)
    (snapshots : List (Key × Value)) : Board Thread Key Value Store where
  store := store
  version := b.version + 1
  newest key := if key ∈ snapshots.map Prod.fst then b.version + 1 else b.newest key
  pending := Function.update b.pending thread (notices (b.version + 1) snapshots)
  delivered := b.delivered

def deliver (b : Board Thread Key Value Store) (thread : Thread) :
    Option (Board Thread Key Value Store) :=
  match b.pending thread with
  | [] => none
  | notice :: rest =>
      some { b with
        pending := Function.update b.pending thread rest
        delivered := notice :: b.delivered }

/-- The notice of a key that was delivered last. -/
def lastDelivered (b : Board Thread Key Value Store) (key : Key) : Option (Notice Key Value) :=
  b.delivered.find? fun notice => notice.key = key

end Operations

/-- The notice has been taken and is still to be delivered, or has been delivered. -/
def Taken (b : Board Thread Key Value Store) (notice : Notice Key Value) : Prop :=
  (∃ thread, notice ∈ b.pending thread) ∨ notice ∈ b.delivered

/-- The next notice of the thread does not come behind the newest one of its key
with another value. -/
def NewestLast (b : Board Thread Key Value Store) (thread : Thread) : Prop :=
  ∀ notice rest, b.pending thread = notice :: rest →
    ∀ other ∈ b.delivered, other.key = notice.key → other.version = b.newest notice.key →
      notice.value = other.value

/-- The snapshots show the store after an update, and other keys keep their values. -/
structure Snapshots (view : Store → Key → Value) (before after : Store)
    (snapshots : List (Key × Value)) : Prop where
  current : ∀ snapshot ∈ snapshots, snapshot.2 = view after snapshot.1
  silent : ∀ key, key ∉ snapshots.map Prod.fst → view after key = view before key

/-- The newest snapshot of a key is its current value and was taken; once it has
been delivered, its value is what was delivered last. -/
structure Inv [DecidableEq Key] (view : Store → Key → Value) (b : Board Thread Key Value Store) :
    Prop where
  numbered : ∀ notice, b.Taken notice → 0 < notice.version ∧ notice.version ≤ b.version
  known : ∀ key, b.newest key ≤ b.version
  current : ∀ notice, b.Taken notice → notice.version = b.newest notice.key →
    notice.value = view b.store notice.key
  taken : ∀ key, b.newest key ≠ 0 →
    ∃ notice, b.Taken notice ∧ notice.key = key ∧ notice.version = b.newest key
  last : ∀ notice ∈ b.delivered, notice.version = b.newest notice.key →
    (b.lastDelivered notice.key).map Notice.value = some (view b.store notice.key)

section Bookkeeping

variable {b next : Board Thread Key Value Store}

theorem mem_notices {version : Nat} {snapshots : List (Key × Value)} {notice : Notice Key Value} :
    notice ∈ notices version snapshots ↔
      (notice.key, notice.value) ∈ snapshots ∧ notice.version = version := by
  rw [notices, List.mem_map]
  constructor
  · rintro ⟨snapshot, member, rfl⟩
    exact ⟨member, rfl⟩
  · rintro ⟨member, rfl⟩
    exact ⟨_, member, rfl⟩

theorem newest_deliver [DecidableEq Thread] {thread : Thread}
    (called : b.deliver thread = some next) : next.newest = b.newest := by
  unfold deliver at called
  split at called
  · cases called
  · cases called
    rfl

theorem taken_deliver [DecidableEq Thread] {thread : Thread} (called : b.deliver thread = some next)
    (notice : Notice Key Value) : next.Taken notice ↔ b.Taken notice := by
  unfold deliver at called
  split at called
  · cases called
  · next first rest pending =>
      cases called
      constructor
      · rintro (⟨other, waits⟩ | delivered)
        · by_cases same : other = thread
          · subst same
            dsimp only at waits
            rw [Function.update_self] at waits
            refine Or.inl ⟨other, ?_⟩
            rw [pending]
            exact List.mem_cons_of_mem _ waits
          · dsimp only at waits
            rw [Function.update_of_ne same] at waits
            exact Or.inl ⟨other, waits⟩
        · rcases List.mem_cons.mp delivered with rfl | earlier
          · refine Or.inl ⟨thread, ?_⟩
            rw [pending]
            exact List.mem_cons_self ..
          · exact Or.inr earlier
      · rintro (⟨other, waits⟩ | delivered)
        · by_cases same : other = thread
          · subst same
            rw [pending] at waits
            rcases List.mem_cons.mp waits with rfl | later
            · exact Or.inr (List.mem_cons_self ..)
            · refine Or.inl ⟨other, ?_⟩
              dsimp only
              rw [Function.update_self]
              exact later
          · refine Or.inl ⟨other, ?_⟩
            dsimp only
            rw [Function.update_of_ne same]
            exact waits
        · exact Or.inr (List.mem_cons_of_mem _ delivered)

end Bookkeeping

section Rules

variable [DecidableEq Key] {view : Store → Key → Value} {b next : Board Thread Key Value Store}

theorem inv_initial (store : Store) : (initial store : Board Thread Key Value Store).Inv view := by
  have none : ∀ notice, ¬ (initial store : Board Thread Key Value Store).Taken notice := by
    rintro notice (⟨thread, pending⟩ | delivered)
    · cases pending
    · cases delivered
  exact ⟨fun notice taken => absurd taken (none notice), fun _ => Nat.le_refl _,
    fun notice taken => absurd taken (none notice), fun key known => absurd rfl known, nofun⟩

/-- With nothing left to deliver, the observer has the current value of every key
of which a snapshot was taken. -/
theorem Inv.converged (inv : b.Inv view) (done : ∀ thread, b.pending thread = []) {key : Key}
    (known : b.newest key ≠ 0) :
    (b.lastDelivered key).map Notice.value = some (view b.store key) := by
  obtain ⟨notice, taken, rfl, version⟩ := inv.taken key known
  have delivered : notice ∈ b.delivered := by
    rcases taken with ⟨thread, pending⟩ | delivered
    · rw [done thread] at pending
      cases pending
    · exact delivered
  exact inv.last notice delivered version

variable [DecidableEq Thread]

theorem pending_update_self (thread : Thread) (store : Store) (snapshots : List (Key × Value)) :
    (b.update thread store snapshots).pending thread = notices (b.version + 1) snapshots :=
  Function.update_self ..

theorem pending_update_of_ne {thread other : Thread} (differs : other ≠ thread) (store : Store)
    (snapshots : List (Key × Value)) :
    (b.update thread store snapshots).pending other = b.pending other :=
  Function.update_of_ne differs ..

/-- What is taken after an update was taken before or is one of its snapshots. -/
theorem taken_update {thread : Thread} (idle : b.pending thread = []) {store : Store}
    {snapshots : List (Key × Value)} {notice : Notice Key Value} :
    (b.update thread store snapshots).Taken notice ↔
      b.Taken notice ∨ notice ∈ notices (b.version + 1) snapshots := by
  constructor
  · rintro (⟨other, pending⟩ | delivered)
    · by_cases same : other = thread
      · subst same
        rw [pending_update_self] at pending
        exact Or.inr pending
      · rw [pending_update_of_ne same] at pending
        exact Or.inl (Or.inl ⟨other, pending⟩)
    · exact Or.inl (Or.inr delivered)
  · rintro ((⟨other, pending⟩ | delivered) | new)
    · refine Or.inl ⟨other, ?_⟩
      have differs : other ≠ thread := by
        rintro rfl
        rw [idle] at pending
        cases pending
      rw [pending_update_of_ne differs]
      exact pending
    · exact Or.inr delivered
    · refine Or.inl ⟨thread, ?_⟩
      rw [pending_update_self]
      exact new

theorem Inv.update (inv : b.Inv view) {thread : Thread} (idle : b.pending thread = [])
    {store : Store} {snapshots : List (Key × Value)}
    (shown : Snapshots view b.store store snapshots) :
    (b.update thread store snapshots).Inv view := by
  have newest : ∀ notice, b.Taken notice →
      notice.version = (b.update thread store snapshots).newest notice.key →
        notice.key ∉ snapshots.map Prod.fst ∧ notice.version = b.newest notice.key := by
    intro notice taken version
    rw [Board.update] at version
    dsimp only at version
    split at version
    · have old := (inv.numbered notice taken).2
      omega
    · next other => exact ⟨other, version⟩
  refine ⟨?_, ?_, ?_, ?_, ?_⟩
  · intro notice taken
    rcases (taken_update idle).mp taken with old | new
    · obtain ⟨positive, known⟩ := inv.numbered notice old
      exact ⟨positive, Nat.le_succ_of_le known⟩
    · rw [(mem_notices.mp new).2]
      exact ⟨Nat.succ_pos _, Nat.le_refl _⟩
  · intro key
    rw [Board.update]
    dsimp only
    split
    · exact Nat.le_refl _
    · exact Nat.le_succ_of_le (inv.known key)
  · intro notice taken version
    rcases (taken_update idle).mp taken with old | new
    · obtain ⟨other, same⟩ := newest notice old version
      rw [inv.current notice old same]
      exact (shown.silent notice.key other).symm
    · exact shown.current _ (mem_notices.mp new).1
  · intro key known
    by_cases member : key ∈ snapshots.map Prod.fst
    · obtain ⟨snapshot, here, rfl⟩ := List.mem_map.mp member
      refine ⟨⟨snapshot.1, snapshot.2, b.version + 1⟩, ?_, rfl, ?_⟩
      · exact (taken_update idle).mpr (Or.inr (mem_notices.mpr ⟨here, rfl⟩))
      · rw [Board.update]
        exact (if_pos member).symm
    · have same : (b.update thread store snapshots).newest key = b.newest key := if_neg member
      rw [same] at known ⊢
      obtain ⟨notice, taken, here, version⟩ := inv.taken key known
      exact ⟨notice, (taken_update idle).mpr (Or.inl taken), here, version⟩
  · intro notice delivered version
    obtain ⟨other, same⟩ := newest notice (Or.inr delivered) version
    have last := inv.last notice delivered same
    rw [← shown.silent notice.key other] at last
    exact last

theorem Inv.deliver (inv : b.Inv view) {thread : Thread} (inOrder : b.NewestLast thread)
    (called : b.deliver thread = some next) : next.Inv view := by
  have taken := taken_deliver called
  unfold Board.deliver at called
  split at called
  · cases called
  · next first rest pending =>
      cases called
      refine ⟨?_, inv.known, ?_, ?_, ?_⟩
      · exact fun notice here => inv.numbered notice ((taken notice).mp here)
      · exact fun notice here => inv.current notice ((taken notice).mp here)
      · intro key known
        obtain ⟨notice, before, here, version⟩ := inv.taken key known
        exact ⟨notice, (taken notice).mpr before, here, version⟩
      · intro notice delivered version
        dsimp only at version ⊢
        unfold lastDelivered
        have value := inv.current notice ((taken notice).mp (Or.inr delivered)) version
        by_cases same : first.key = notice.key
        · rw [List.find?_cons_of_pos (by simpa using same), Option.map_some, ← value]
          rcases List.mem_cons.mp delivered with rfl | earlier
          · rfl
          · -- the newest notice of this key is out already
            rw [← same] at version
            rw [inOrder first rest pending notice earlier same.symm version]
        · rw [List.find?_cons_of_neg (by simpa using same)]
          rcases List.mem_cons.mp delivered with rfl | earlier
          · exact absurd rfl same
          · exact inv.last notice earlier version

end Rules

end Board

end Observers
