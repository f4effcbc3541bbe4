import Mathlib.Data.Finset.Card
import Mathlib.Data.List.AList
import RpcFramework.Lib.Decimal
import RpcFramework.Lib.SortedMap
import RpcFramework.Network.Buffer

/-!
# The consistent-hash ring

`ConsistentHash` places every node at `virtualNodes` points of a ring of 32-bit
hash values and sends a key to the first point at or behind the hash of the key,
starting over at the smallest point.  `ring_` maps the points to their nodes and
`nodeHashes_` the nodes to their points.  Points are inserted over points of
other nodes and erased without regard to their node, so the two maps agree on a
point only if no other node shares it.
-/

namespace RpcFramework

instance uint32LinearOrder : LinearOrder UInt32 where
  le_refl _ := UInt32.le_refl _
  le_trans _ _ _ := UInt32.le_trans
  lt_iff_le_not_ge first second := by
    rw [UInt32.lt_iff_toNat_lt, UInt32.le_iff_toNat_le, UInt32.le_iff_toNat_le]
    omega
  le_antisymm _ _ := UInt32.le_antisymm
  le_total := UInt32.le_total
  toDecidableLE := inferInstance
  toDecidableEq := inferInstance
  toDecidableLT := inferInstance

structure ConsistentHash where
  virtualNodes : Nat
  hashFunc : Bytes → UInt32
  ring : SortedMap UInt32 Bytes
  nodeHashes : AList (fun _ : Bytes => List UInt32)

namespace ConsistentHash

open Decimal

def new (hashFunc : Bytes → UInt32) (virtualNodes : Nat) : ConsistentHash :=
  ⟨virtualNodes, hashFunc, .empty, ∅⟩

def virtualNodeKey (node : Bytes) (index : Nat) : Bytes := node ++ 0x23 :: decimal index

/-- The virtual points of a node, in the order of their indices. -/
def virtualPoints (hashFunc : Bytes → UInt32) (virtualNodes : Nat) (node : Bytes) : List UInt32 :=
  (List.range virtualNodes).map fun i => hashFunc (virtualNodeKey node i)

def points (ch : ConsistentHash) (node : Bytes) : List UInt32 :=
  virtualPoints ch.hashFunc ch.virtualNodes node

/-- Take the listed points of a node off the ring and the node off the table. -/
def forget (ch : ConsistentHash) (node : Bytes) (hashes : List UInt32) : ConsistentHash :=
  { ch with
    ring := hashes.foldl (fun ring hash => ring.erase hash) ch.ring
    nodeHashes := ch.nodeHashes.erase node }

def addNode (ch : ConsistentHash) (node : Bytes) : ConsistentHash :=
  let ch :=
    match ch.nodeHashes.lookup node with
    | some hashes => ch.forget node hashes
    | none => ch
  let hashes := ch.points node
  { ch with
    ring := hashes.foldl (fun ring hash => ring.insert hash node) ch.ring
    nodeHashes := ch.nodeHashes.insert node hashes }

def removeNode (ch : ConsistentHash) (node : Bytes) : ConsistentHash :=
  match ch.nodeHashes.lookup node with
  | none => ch
  | some hashes => ch.forget node hashes

def getNode (ch : ConsistentHash) (key : Bytes) : Bytes :=
  if ch.ring.entries.isEmpty then []
  else
    let hash := ch.hashFunc key
    match ch.ring.lowerBound hash with
    | some entry => entry.2
    | none =>
        match ch.ring.entries.head? with
        | some entry => entry.2
        | none => []

def size (ch : ConsistentHash) : Nat := ch.nodeHashes.entries.length

inductive Update where
  | addNode (node : Bytes)
  | removeNode (node : Bytes)
  deriving DecidableEq, Repr

def update (ch : ConsistentHash) : Update → ConsistentHash
  | .addNode node => ch.addNode node
  | .removeNode node => ch.removeNode node

def run (ch : ConsistentHash) (updates : List Update) : ConsistentHash :=
  updates.foldl update ch

/-! ## What the ring is for -/

/-- The node set that a sequence of updates leaves. -/
def member (members : Finset Bytes) : Update → Finset Bytes
  | .addNode node => insert node members
  | .removeNode node => members.erase node

def members (updates : List Update) : Finset Bytes := updates.foldl member ∅

/-- The node has a point that is nearest clockwise from the hash of the key. -/
def Nearest (hashFunc : Bytes → UInt32) (virtualNodes : Nat) (members : Finset Bytes)
    (key node : Bytes) : Prop :=
  node ∈ members ∧ ∃ i < virtualNodes, ∀ other ∈ members, ∀ j < virtualNodes,
    (hashFunc (virtualNodeKey node i) - hashFunc key).toNat ≤
      (hashFunc (virtualNodeKey other j) - hashFunc key).toNat

/-- The hash function tells the keys of all virtual nodes that were ever added apart. -/
def DistinctHashes (hashFunc : Bytes → UInt32) (virtualNodes : Nat) (updates : List Update) :
    Prop :=
  ∀ node other, .addNode node ∈ updates → .addNode other ∈ updates →
    ∀ i < virtualNodes, ∀ j < virtualNodes,
      hashFunc (virtualNodeKey node i) = hashFunc (virtualNodeKey other j) →
        virtualNodeKey node i = virtualNodeKey other j

/-! ## Keys of virtual nodes -/

/-- The separator is the last one of the key, so the key tells the node and the index. -/
theorem virtualNodeKey_injective {node other : Bytes} {i j : Nat}
    (same : virtualNodeKey node i = virtualNodeKey other j) : node = other ∧ i = j := by
  have plain : ∀ n, 0x23 ∉ decimal n := fun n member => by cases isDigit_of_mem_decimal member
  obtain ⟨nodes, indices⟩ := append_separator_injective (plain i) (plain j) same
  exact ⟨nodes, by rw [← ofDecimal_decimal i, indices, ofDecimal_decimal]⟩

theorem mem_virtualPoints {hashFunc : Bytes → UInt32} {virtualNodes : Nat} {node : Bytes}
    {point : UInt32} :
    point ∈ virtualPoints hashFunc virtualNodes node ↔
      ∃ i < virtualNodes, hashFunc (virtualNodeKey node i) = point := by
  simp [virtualPoints]

/-- With distinct hashes no two nodes share a point. -/
theorem DistinctHashes.apart {hashFunc : Bytes → UInt32} {virtualNodes : Nat}
    {updates : List Update} (distinct : DistinctHashes hashFunc virtualNodes updates)
    {node other : Bytes} (added : .addNode node ∈ updates) (also : .addNode other ∈ updates)
    {point : UInt32} (here : point ∈ virtualPoints hashFunc virtualNodes node)
    (there : point ∈ virtualPoints hashFunc virtualNodes other) : node = other := by
  obtain ⟨i, first, rfl⟩ := mem_virtualPoints.mp here
  obtain ⟨j, second, same⟩ := mem_virtualPoints.mp there
  exact (virtualNodeKey_injective (distinct node other added also i first j second same.symm)).1

/-! ## One update -/

/-- The table lists the points of its nodes, and the ring holds points of these nodes only. -/
structure Consistent (ch : ConsistentHash) : Prop where
  listed : ∀ node hashes, ch.nodeHashes.lookup node = some hashes → hashes = ch.points node
  owned : ∀ entry ∈ ch.ring, entry.2 ∈ ch.nodeHashes ∧ entry.1 ∈ ch.points entry.2

theorem new_consistent (hashFunc : Bytes → UInt32) (virtualNodes : Nat) :
    (new hashFunc virtualNodes).Consistent := by
  refine ⟨?_, ?_⟩
  · intro node hashes found
    cases found
  · intro entry member
    exact absurd member (SortedMap.not_mem_empty entry)

section Updates

variable {ch : ConsistentHash} (node : Bytes)

theorem mem_nodeHashes_removeNode {other : Bytes} :
    other ∈ (ch.removeNode node).nodeHashes ↔ other ≠ node ∧ other ∈ ch.nodeHashes := by
  unfold removeNode
  split
  · next absent =>
      refine (and_iff_right_of_imp ?_).symm
      rintro present rfl
      exact absurd present (AList.lookup_eq_none.mp absent)
  · exact AList.mem_erase

theorem mem_ring_removeNode (consistent : ch.Consistent) {entry : UInt32 × Bytes} :
    entry ∈ (ch.removeNode node).ring ↔
      entry ∈ ch.ring ∧ (node ∈ ch.nodeHashes → entry.1 ∉ ch.points node) := by
  unfold removeNode
  split
  · next absent =>
      refine (and_iff_left_of_imp ?_).symm
      intro _ present
      exact absurd present (AList.lookup_eq_none.mp absent)
  · next hashes found =>
      have present : node ∈ ch.nodeHashes :=
        AList.lookup_isSome.mp (Option.isSome_of_eq_some found)
      rw [consistent.listed node hashes found]
      exact SortedMap.mem_foldl_erase.trans
        (and_congr_right fun _ => (imp_iff_right present).symm)

/-- `addNode` removes the node first, if it is there, and then places its points. -/
theorem addNode_eq :
    ch.addNode node =
      { ch.removeNode node with
        ring := (ch.points node).foldl (fun ring hash => ring.insert hash node)
          (ch.removeNode node).ring
        nodeHashes := (ch.removeNode node).nodeHashes.insert node (ch.points node) } := by
  unfold addNode removeNode
  cases ch.nodeHashes.lookup node with
  | none => rfl
  | some hashes => rfl

theorem mem_nodeHashes_addNode {other : Bytes} :
    other ∈ (ch.addNode node).nodeHashes ↔ other = node ∨ other ∈ ch.nodeHashes := by
  rw [addNode_eq]
  refine (AList.mem_insert _).trans ?_
  rw [mem_nodeHashes_removeNode]
  by_cases same : other = node
  · simp [same]
  · simp [same]

theorem mem_ring_addNode (consistent : ch.Consistent) {entry : UInt32 × Bytes} :
    entry ∈ (ch.addNode node).ring ↔
      entry.2 = node ∧ entry.1 ∈ ch.points node ∨ entry ∈ ch.ring ∧ entry.1 ∉ ch.points node := by
  rw [addNode_eq]
  refine SortedMap.mem_foldl_insert.trans ?_
  rw [mem_ring_removeNode node consistent, and_assoc]
  apply or_congr_right
  apply and_congr_right
  intro _
  exact and_iff_right_of_imp fun outside _ => outside

theorem removeNode_config (ch : ConsistentHash) (node : Bytes) :
    (ch.removeNode node).hashFunc = ch.hashFunc ∧
      (ch.removeNode node).virtualNodes = ch.virtualNodes := by
  unfold removeNode
  split
  · exact ⟨rfl, rfl⟩
  · exact ⟨rfl, rfl⟩

@[simp]
theorem points_removeNode : (ch.removeNode node).points = ch.points := by
  obtain ⟨hash, count⟩ := ch.removeNode_config node
  funext other
  rw [points, points, hash, count]

@[simp]
theorem points_addNode : (ch.addNode node).points = ch.points := by
  rw [addNode_eq]
  exact points_removeNode node

theorem Consistent.removeNode (consistent : ch.Consistent) :
    (ch.removeNode node).Consistent := by
  constructor
  · intro other hashes found
    rw [points_removeNode]
    apply consistent.listed other hashes
    unfold ConsistentHash.removeNode at found
    split at found
    · exact found
    · by_cases same : other = node
      · rw [same] at found
        exact absurd (found.symm.trans (AList.lookup_erase _ _)) (Option.some_ne_none _)
      · exact (AList.lookup_erase_ne same).symm.trans found
  · intro entry member
    obtain ⟨before, off⟩ := (mem_ring_removeNode node consistent).mp member
    obtain ⟨present, point⟩ := consistent.owned entry before
    rw [points_removeNode, mem_nodeHashes_removeNode]
    refine ⟨⟨?_, present⟩, point⟩
    rintro rfl
    exact off present point

theorem Consistent.addNode (consistent : ch.Consistent) : (ch.addNode node).Consistent := by
  constructor
  · intro other hashes found
    rw [points_addNode]
    rw [addNode_eq] at found
    by_cases same : other = node
    · subst same
      exact (Option.some.inj ((AList.lookup_insert _).symm.trans found)).symm
    · have before := (AList.lookup_insert_ne same).symm.trans found
      rw [(consistent.removeNode node).listed other hashes before, points_removeNode]
  · intro entry member
    rw [points_addNode, mem_nodeHashes_addNode]
    rcases (mem_ring_addNode node consistent).mp member with ⟨rfl, point⟩ | ⟨before, _⟩
    · exact ⟨Or.inl rfl, point⟩
    · obtain ⟨present, point⟩ := consistent.owned entry before
      exact ⟨Or.inr present, point⟩

end Updates

/-! ## Sequences of updates -/

/-- No other node of a family has the point. -/
def Private (hashFunc : Bytes → UInt32) (virtualNodes : Nat) (Allowed : Bytes → Prop)
    (node : Bytes) (point : UInt32) : Prop :=
  ∀ other, Allowed other → point ∈ virtualPoints hashFunc virtualNodes other → other = node

/-- The ring serves the members: they come from the family, and every private
point of a member is on the ring. -/
structure Serves (hashFunc : Bytes → UInt32) (virtualNodes : Nat) (Allowed : Bytes → Prop)
    (members : Finset Bytes) (ch : ConsistentHash) : Prop extends ch.Consistent where
  hash : ch.hashFunc = hashFunc
  count : ch.virtualNodes = virtualNodes
  present : ∀ node, node ∈ ch.nodeHashes ↔ node ∈ members
  allowed : ∀ node ∈ members, Allowed node
  held : ∀ node ∈ members, ∀ point ∈ virtualPoints hashFunc virtualNodes node,
    Private hashFunc virtualNodes Allowed node point → (point, node) ∈ ch.ring

section Runs

variable {hashFunc : Bytes → UInt32} {virtualNodes : Nat} {Allowed : Bytes → Prop}
variable {members : Finset Bytes} {ch : ConsistentHash}

theorem Serves.points (serves : Serves hashFunc virtualNodes Allowed members ch) (node : Bytes) :
    ch.points node = virtualPoints hashFunc virtualNodes node := by
  rw [ConsistentHash.points, serves.hash, serves.count]

theorem Serves.removeNode (serves : Serves hashFunc virtualNodes Allowed members ch)
    (node : Bytes) :
    Serves hashFunc virtualNodes Allowed (members.erase node) (ch.removeNode node) := by
  obtain ⟨hash, count⟩ := ch.removeNode_config node
  refine ⟨serves.toConsistent.removeNode node, hash.trans serves.hash, count.trans serves.count,
    ?_, ?_, ?_⟩
  · intro other
    rw [mem_nodeHashes_removeNode, Finset.mem_erase, serves.present]
  · intro other left
    exact serves.allowed other (Finset.mem_of_mem_erase left)
  · intro other left point listed alone
    obtain ⟨differs, before⟩ := Finset.mem_erase.mp left
    rw [mem_ring_removeNode node serves.toConsistent, serves.points]
    refine ⟨serves.held other before point listed alone, ?_⟩
    intro present shared
    have family := serves.allowed node ((serves.present node).mp present)
    exact differs (alone node family shared).symm

theorem Serves.addNode (serves : Serves hashFunc virtualNodes Allowed members ch)
    {node : Bytes} (family : Allowed node) :
    Serves hashFunc virtualNodes Allowed (insert node members) (ch.addNode node) := by
  obtain ⟨hash, count⟩ := ch.removeNode_config node
  refine ⟨serves.toConsistent.addNode node, ?_, ?_, ?_, ?_, ?_⟩
  · rw [addNode_eq]
    exact hash.trans serves.hash
  · rw [addNode_eq]
    exact count.trans serves.count
  · intro other
    rw [mem_nodeHashes_addNode, Finset.mem_insert, serves.present]
  · intro other member
    rcases Finset.mem_insert.mp member with rfl | before
    · exact family
    · exact serves.allowed other before
  · intro other member point listed alone
    rw [mem_ring_addNode node serves.toConsistent, serves.points]
    by_cases same : other = node
    · subst same
      exact Or.inl ⟨rfl, listed⟩
    · have before := (Finset.mem_insert.mp member).resolve_left same
      refine Or.inr ⟨serves.held other before point listed alone, ?_⟩
      intro shared
      exact same (alone node family shared).symm

theorem Serves.run (serves : Serves hashFunc virtualNodes Allowed members ch)
    {updates : List Update} (family : ∀ node, .addNode node ∈ updates → Allowed node) :
    Serves hashFunc virtualNodes Allowed (updates.foldl member members) (ch.run updates) := by
  induction updates generalizing ch members with
  | nil => exact serves
  | cons update updates ih =>
      have later : ∀ node, .addNode node ∈ updates → Allowed node :=
        fun node added => family node (List.mem_cons_of_mem _ added)
      cases update with
      | addNode node => exact ih (serves.addNode (family node (List.mem_cons_self ..))) later
      | removeNode node => exact ih (serves.removeNode node) later

theorem new_serves (hashFunc : Bytes → UInt32) (virtualNodes : Nat) (Allowed : Bytes → Prop) :
    Serves hashFunc virtualNodes Allowed ∅ (new hashFunc virtualNodes) := by
  refine ⟨new_consistent hashFunc virtualNodes, rfl, rfl, ?_, ?_, ?_⟩
  · intro node
    exact iff_of_false (AList.notMem_empty node) (Finset.notMem_empty node)
  · intro node member
    exact absurd member (Finset.notMem_empty node)
  · intro node member
    exact absurd member (Finset.notMem_empty node)

theorem run_serves {updates : List Update} (family : ∀ node, .addNode node ∈ updates → Allowed node) :
    Serves hashFunc virtualNodes Allowed (ConsistentHash.members updates)
      ((new hashFunc virtualNodes).run updates) :=
  (new_serves hashFunc virtualNodes Allowed).run family

/-- The family of the nodes that were added. -/
theorem run_serves_added (hashFunc : Bytes → UInt32) (virtualNodes : Nat)
    (updates : List Update) :
    Serves hashFunc virtualNodes (fun node => .addNode node ∈ updates)
      (ConsistentHash.members updates) ((new hashFunc virtualNodes).run updates) :=
  run_serves fun _ added => added

/-! ## Lookups -/

theorem getNode_eq (ch : ConsistentHash) (key : Bytes) :
    ch.getNode key = ((ch.ring.successor (ch.hashFunc key)).map Prod.snd).getD [] := by
  unfold getNode SortedMap.successor
  split
  · next nothing =>
      have nothing : ch.ring.entries = [] := List.isEmpty_iff.mp nothing
      rw [SortedMap.lowerBound, nothing]
      rfl
  · dsimp only
    cases ch.ring.lowerBound (ch.hashFunc key) with
    | some entry => rfl
    | none =>
        cases ch.ring.entries.head? with
        | some entry => rfl
        | none => rfl

theorem Serves.getNode_of_successor (serves : Serves hashFunc virtualNodes Allowed members ch)
    {key : Bytes} {entry : UInt32 × Bytes}
    (found : ch.ring.successor (hashFunc key) = some entry) : ch.getNode key = entry.2 := by
  rw [getNode_eq, serves.hash, found]
  rfl

theorem size_eq_card (serves : Serves hashFunc virtualNodes Allowed members ch) :
    ch.size = members.card := by
  have keys : ch.nodeHashes.keys.toFinset = members := by
    ext node
    rw [List.mem_toFinset, ← serves.present node]
    rfl
  rw [← keys, List.toFinset_card_of_nodup ch.nodeHashes.keys_nodup]
  exact (List.length_map _).symm

/-- A lookup on a ring with a point gives a member, and on an empty ring nothing. -/
theorem Serves.getNode_cases (serves : Serves hashFunc virtualNodes Allowed members ch)
    (key : Bytes) :
    (ch.ring.entries = [] ∧ ch.getNode key = []) ∨
      ∃ entry, ch.ring.successor (hashFunc key) = some entry ∧
        ch.getNode key = entry.2 ∧ entry.2 ∈ members := by
  cases found : ch.ring.successor (hashFunc key) with
  | none =>
      refine Or.inl ⟨SortedMap.successor_eq_none_iff.mp found, ?_⟩
      rw [getNode_eq, serves.hash, found]
      rfl
  | some entry =>
      refine Or.inr ⟨entry, rfl, serves.getNode_of_successor found, ?_⟩
      have onRing := (SortedMap.successor_eq_some_iff.mp found).1
      exact (serves.present entry.2).mp (serves.owned entry onRing).1

theorem Serves.getNode_of_no_point (serves : Serves hashFunc virtualNodes Allowed members ch)
    (nothing : ch.ring.entries = []) (key : Bytes) : ch.getNode key = [] := by
  rcases serves.getNode_cases key with ⟨_, empty⟩ | ⟨entry, found, _⟩
  · exact empty
  · have onRing : entry ∈ ch.ring.entries := (SortedMap.successor_eq_some_iff.mp found).1
    rw [nothing] at onRing
    cases onRing

/-- The order clockwise is the order of the distances modulo `2 ^ 32`. -/
theorem clockwise_iff (origin first second : UInt32) :
    SortedMap.Clockwise origin first second ↔
      (first - origin).toNat ≤ (second - origin).toNat := by
  have bounds := origin.toNat_lt
  have firstBound := first.toNat_lt
  have secondBound := second.toNat_lt
  rw [SortedMap.Clockwise, UInt32.toNat_sub, UInt32.toNat_sub]
  simp only [UInt32.le_iff_toNat_le, UInt32.lt_iff_toNat_lt]
  split
  · omega
  · omega

end Runs

section Distinct

variable {hashFunc : Bytes → UInt32} {virtualNodes : Nat} {updates : List Update}

/-- With distinct hashes every point is private. -/
theorem DistinctHashes.isPrivate (distinct : DistinctHashes hashFunc virtualNodes updates)
    {node : Bytes} (added : .addNode node ∈ updates) {point : UInt32}
    (listed : point ∈ virtualPoints hashFunc virtualNodes node) :
    Private hashFunc virtualNodes (fun other => .addNode other ∈ updates) node point := by
  intro other also shared
  exact distinct.apart also added shared listed

/-- With distinct hashes the ring consists of the points of the members. -/
theorem mem_ring_iff (distinct : DistinctHashes hashFunc virtualNodes updates)
    {entry : UInt32 × Bytes} :
    entry ∈ ((new hashFunc virtualNodes).run updates).ring ↔
      entry.2 ∈ members updates ∧ entry.1 ∈ virtualPoints hashFunc virtualNodes entry.2 := by
  have serves := run_serves_added hashFunc virtualNodes updates
  constructor
  · intro onRing
    obtain ⟨present, point⟩ := serves.owned entry onRing
    exact ⟨(serves.present entry.2).mp present, serves.points entry.2 ▸ point⟩
  · rintro ⟨member, point⟩
    exact serves.held entry.2 member entry.1 point
      (distinct.isPrivate (serves.allowed entry.2 member) point)

theorem nearest_iff_successor (distinct : DistinctHashes hashFunc virtualNodes updates)
    (key node : Bytes) :
    Nearest hashFunc virtualNodes (members updates) key node ↔
      ∃ point, ((new hashFunc virtualNodes).run updates).ring.successor (hashFunc key) =
        some (point, node) := by
  constructor
  · rintro ⟨member, i, index, first⟩
    refine ⟨hashFunc (virtualNodeKey node i), SortedMap.successor_eq_some_iff.mpr ⟨?_, ?_⟩⟩
    · exact (mem_ring_iff distinct).mpr ⟨member, mem_virtualPoints.mpr ⟨i, index, rfl⟩⟩
    · intro other onRing
      obtain ⟨otherMember, listed⟩ := (mem_ring_iff distinct).mp onRing
      obtain ⟨j, otherIndex, point⟩ := mem_virtualPoints.mp listed
      rw [clockwise_iff, ← point]
      exact first other.2 otherMember j otherIndex
  · rintro ⟨point, found⟩
    obtain ⟨onRing, first⟩ := SortedMap.successor_eq_some_iff.mp found
    obtain ⟨member, listed⟩ := (mem_ring_iff distinct).mp onRing
    obtain ⟨i, index, atPoint⟩ := mem_virtualPoints.mp listed
    have atPoint : hashFunc (virtualNodeKey node i) = point := atPoint
    refine ⟨member, i, index, ?_⟩
    intro other otherMember j otherIndex
    rw [← clockwise_iff, atPoint]
    exact first (hashFunc (virtualNodeKey other j), other)
      ((mem_ring_iff distinct).mpr ⟨otherMember, mem_virtualPoints.mpr ⟨j, otherIndex, rfl⟩⟩)

/-- The nearest node is the one that is looked up. -/
theorem nearest_iff_getNode (positive : 1 ≤ virtualNodes)
    (distinct : DistinctHashes hashFunc virtualNodes updates) (key node : Bytes) :
    Nearest hashFunc virtualNodes (members updates) key node ↔
      (members updates).Nonempty ∧ ((new hashFunc virtualNodes).run updates).getNode key = node := by
  have serves := run_serves_added hashFunc virtualNodes updates
  constructor
  · intro nearest
    obtain ⟨point, found⟩ := (nearest_iff_successor distinct key node).mp nearest
    exact ⟨⟨node, nearest.1⟩, serves.getNode_of_successor found⟩
  · rintro ⟨⟨someNode, member⟩, looked⟩
    rcases serves.getNode_cases key with ⟨nothing, _⟩ | ⟨entry, found, owner, _⟩
    · have onRing : (hashFunc (virtualNodeKey someNode 0), someNode) ∈
          ((new hashFunc virtualNodes).run updates).ring.entries :=
        (mem_ring_iff distinct).mpr ⟨member, mem_virtualPoints.mpr ⟨0, positive, rfl⟩⟩
      rw [nothing] at onRing
      cases onRing
    · rw [← looked, owner]
      exact (nearest_iff_successor distinct key entry.2).mpr ⟨entry.1, found⟩

theorem getNode_of_no_member (nobody : members updates = ∅) (key : Bytes) :
    ((new hashFunc virtualNodes).run updates).getNode key = [] := by
  have serves : Serves hashFunc virtualNodes (fun _ => True) (members updates)
      ((new hashFunc virtualNodes).run updates) := run_serves fun _ _ => trivial
  rcases serves.getNode_cases key with ⟨_, nothing⟩ | ⟨entry, _, _, member⟩
  · exact nothing
  · rw [nobody] at member
    exact absurd member (Finset.notMem_empty _)

/--
A lookup returns the member with the nearest virtual point clockwise from the
hash of the key, and the empty string exactly when there is no member; so the
answer depends on the current members only.
-/
theorem getNode_clockwise (positive : 1 ≤ virtualNodes)
    (named : ∀ node, .addNode node ∈ updates → node ≠ [])
    (distinct : DistinctHashes hashFunc virtualNodes updates) (key : Bytes) :
    (∀ node, Nearest hashFunc virtualNodes (members updates) key node ↔
      (members updates).Nonempty ∧
        ((new hashFunc virtualNodes).run updates).getNode key = node) ∧
    (((new hashFunc virtualNodes).run updates).getNode key = [] ↔ members updates = ∅) ∧
    ∀ others, DistinctHashes hashFunc virtualNodes others → members others = members updates →
      ((new hashFunc virtualNodes).run others).getNode key =
        ((new hashFunc virtualNodes).run updates).getNode key := by
  have nearest := nearest_iff_getNode positive distinct key
  refine ⟨nearest, ⟨?_, fun nobody => getNode_of_no_member nobody key⟩, ?_⟩
  · intro looked
    refine Finset.not_nonempty_iff_eq_empty.mp fun someone => ?_
    have serves := run_serves_added hashFunc virtualNodes updates
    have member := ((nearest _).mpr ⟨someone, looked⟩).1
    exact named [] (serves.allowed [] member) rfl
  · intro others alsoDistinct same
    rcases (members updates).eq_empty_or_nonempty with nobody | someone
    · rw [getNode_of_no_member nobody, getNode_of_no_member (same.trans nobody)]
    · have found := (nearest _).mpr ⟨someone, rfl⟩
      rw [← same] at found
      exact ((nearest_iff_getNode positive alsoDistinct key _).mp found).2

/-- A hash that reads the last four bytes of a key as a number. -/
def tailHash (key : Bytes) : UInt32 :=
  key.foldl (fun hash byte => hash * 256 + byte.toUInt32) 0

/-- Two nodes, of which one is added twice and the other one is removed. -/
def smallHistory : List Update :=
  [.addNode [0x61], .addNode [0x62], .addNode [0x61], .removeNode [0x62]]

theorem smallHistory_distinct : DistinctHashes tailHash 2 smallHistory := by
  have listed : ∀ node, .addNode node ∈ smallHistory → node ∈ [[0x61], [0x62]] := by
    intro node added
    simpa [smallHistory, or_comm] using added
  have apart : ∀ node ∈ [[0x61], [0x62]], ∀ other ∈ [[0x61], [0x62]], ∀ i < 2, ∀ j < 2,
      tailHash (virtualNodeKey node i) = tailHash (virtualNodeKey other j) →
        virtualNodeKey node i = virtualNodeKey other j := by
    decide +kernel
  intro node other added also
  exact apart node (listed node added) other (listed other also)

theorem smallHistory_named (node : Bytes) (added : .addNode node ∈ smallHistory) : node ≠ [] := by
  rintro rfl
  revert added
  decide

theorem getNode_clockwise_smallHistory :
    ((new tailHash 2).run smallHistory).getNode [0x6b] = [0x61] ∧
      Nearest tailHash 2 (members smallHistory) [0x6b] [0x61] := by
  obtain ⟨nearest, _⟩ := getNode_clockwise (by decide) smallHistory_named
    smallHistory_distinct [0x6b]
  have looked : ((new tailHash 2).run smallHistory).getNode [0x6b] = [0x61] := by decide +kernel
  exact ⟨looked, (nearest _).mpr ⟨⟨[0x61], by decide +kernel⟩, looked⟩⟩

/-! ## Changes of the node set -/

theorem removeNode_moves_only {node key : Bytes}
    (distinct : DistinctHashes hashFunc virtualNodes updates)
    (moved : (((new hashFunc virtualNodes).run updates).removeNode node).getNode key ≠
      ((new hashFunc virtualNodes).run updates).getNode key) :
    ((new hashFunc virtualNodes).run updates).getNode key = node := by
  have serves := run_serves_added hashFunc virtualNodes updates
  have ring := fun entry => @mem_ring_iff hashFunc virtualNodes updates distinct entry
  generalize (new hashFunc virtualNodes).run updates = ch at moved serves ring ⊢
  have removed := serves.removeNode node
  have smaller : ∀ entry ∈ (ch.removeNode node).ring, entry ∈ ch.ring :=
    fun entry onRing => ((mem_ring_removeNode node serves.toConsistent).mp onRing).1
  rcases serves.getNode_cases key with ⟨nothing, empty⟩ | ⟨entry, found, owner, member⟩
  · have fewer : (ch.removeNode node).ring.entries ⊆ ch.ring.entries := fun entry => smaller entry
    rw [nothing, List.subset_nil] at fewer
    exact absurd ((removed.getNode_of_no_point fewer key).trans empty.symm) moved
  · refine Classical.byContradiction fun other => moved ?_
    have onRing := (SortedMap.successor_eq_some_iff.mp found).1
    have kept : entry ∈ (ch.removeNode node).ring := by
      refine (mem_ring_removeNode node serves.toConsistent).mpr ⟨onRing, ?_⟩
      intro present shared
      have added := serves.allowed node ((serves.present node).mp present)
      have listed := ((ring entry).mp onRing).2
      rw [serves.points] at shared
      exact other (owner.trans (distinct.apart (serves.allowed _ member) added listed shared))
    rw [owner]
    exact removed.getNode_of_successor (SortedMap.successor_of_subset smaller kept found)

theorem addNode_moves_only {node key : Bytes}
    (distinct : DistinctHashes hashFunc virtualNodes (updates ++ [.addNode node]))
    (moved : (((new hashFunc virtualNodes).run updates).addNode node).getNode key ≠
      ((new hashFunc virtualNodes).run updates).getNode key) :
    (((new hashFunc virtualNodes).run updates).addNode node).getNode key = node := by
  have serves : Serves hashFunc virtualNodes
      (fun other => .addNode other ∈ updates ++ [.addNode node])
      (members updates) ((new hashFunc virtualNodes).run updates) :=
    run_serves fun _ added => List.mem_append_left _ added
  have last : .addNode node ∈ updates ++ [.addNode node] :=
    List.mem_append_right _ (List.mem_singleton.mpr rfl)
  generalize (new hashFunc virtualNodes).run updates = ch at moved serves ⊢
  have added := serves.addNode last
  -- a point of the new node that is on the ring already is its own
  have larger : ∀ entry ∈ ch.ring, entry ∈ (ch.addNode node).ring := by
    intro entry onRing
    rw [mem_ring_addNode node serves.toConsistent]
    by_cases shared : entry.1 ∈ ch.points node
    · obtain ⟨present, listed⟩ := serves.owned entry onRing
      have family := serves.allowed entry.2 ((serves.present entry.2).mp present)
      rw [serves.points] at listed shared
      exact Or.inl ⟨distinct.apart family last listed shared, serves.points node ▸ shared⟩
    · exact Or.inr ⟨onRing, shared⟩
  rcases added.getNode_cases key with ⟨nothing, empty⟩ | ⟨entry, found, owner, _⟩
  · have fewer : ch.ring.entries ⊆ (ch.addNode node).ring.entries := fun entry => larger entry
    rw [nothing, List.subset_nil] at fewer
    exact absurd (empty.trans (serves.getNode_of_no_point fewer key).symm) moved
  · refine Classical.byContradiction fun other => moved ?_
    have onRing := (SortedMap.successor_eq_some_iff.mp found).1
    rcases (mem_ring_addNode node serves.toConsistent).mp onRing with ⟨new, _⟩ | ⟨before, _⟩
    · exact absurd (owner.trans new) other
    · rw [owner]
      exact (serves.getNode_of_successor
        (SortedMap.successor_of_subset larger before found)).symm

/--
A removal moves only keys of the removed node, and an addition moves keys to the
added node only.
-/
theorem minimal_disruption (distinct : DistinctHashes hashFunc virtualNodes updates)
    (key : Bytes) :
    (∀ node, (((new hashFunc virtualNodes).run updates).removeNode node).getNode key ≠
        ((new hashFunc virtualNodes).run updates).getNode key →
      ((new hashFunc virtualNodes).run updates).getNode key = node) ∧
    ∀ node, DistinctHashes hashFunc virtualNodes (updates ++ [.addNode node]) →
      (((new hashFunc virtualNodes).run updates).addNode node).getNode key ≠
          ((new hashFunc virtualNodes).run updates).getNode key →
        (((new hashFunc virtualNodes).run updates).addNode node).getNode key = node :=
  ⟨fun _ moved => removeNode_moves_only distinct moved,
    fun _ distinct moved => addNode_moves_only distinct moved⟩

theorem minimal_disruption_smallHistory :
    ((new tailHash 2).run smallHistory).getNode [0x6b] = [0x61] ∧
      (((new tailHash 2).run smallHistory).addNode [0x62]).getNode [0x61, 0xff, 0xff] = [0x62] := by
  have left : (((new tailHash 2).run smallHistory).removeNode [0x61]).getNode [0x6b] ≠
      ((new tailHash 2).run smallHistory).getNode [0x6b] := by
    decide +kernel
  have joined : (((new tailHash 2).run smallHistory).addNode [0x62]).getNode [0x61, 0xff, 0xff] ≠
      ((new tailHash 2).run smallHistory).getNode [0x61, 0xff, 0xff] := by
    decide +kernel
  -- the node that comes back is one of the history
  have listed : ∀ node, .addNode node ∈ smallHistory ++ [.addNode [0x62]] →
      .addNode node ∈ smallHistory := by
    intro node added
    rcases List.mem_append.mp added with before | last
    · exact before
    · rw [List.mem_singleton.mp last]
      decide
  have distinct : DistinctHashes tailHash 2 (smallHistory ++ [.addNode [0x62]]) :=
    fun node other added also =>
      smallHistory_distinct node other (listed node added) (listed other also)
  exact ⟨(minimal_disruption smallHistory_distinct [0x6b]).1 [0x61] left,
    (minimal_disruption smallHistory_distinct [0x61, 0xff, 0xff]).2 [0x62] distinct joined⟩

end Distinct

/-! ## Shared points -/

section Shared

variable {hashFunc : Bytes → UInt32} {virtualNodes : Nat} {Allowed : Bytes → Prop}

theorem mem_foldl_addNode {nodes : List Bytes} {members : Finset Bytes} {node : Bytes} :
    node ∈ (nodes.map Update.addNode).foldl member members ↔ node ∈ nodes ∨ node ∈ members := by
  induction nodes generalizing members with
  | nil => simp
  | cons first nodes ih =>
      rw [List.map_cons, List.foldl_cons, ih, member, Finset.mem_insert, List.mem_cons]
      tauto

theorem mem_foldl_removeNode {nodes : List Bytes} {members : Finset Bytes} {node : Bytes} :
    node ∈ (nodes.map Update.removeNode).foldl member members ↔ node ∉ nodes ∧ node ∈ members := by
  induction nodes generalizing members with
  | nil => simp
  | cons first nodes ih =>
      rw [List.map_cons, List.foldl_cons, ih, member, Finset.mem_erase, List.mem_cons]
      tauto

/-- Removed members take all their points with them. -/
theorem Serves.removeNodes {members : Finset Bytes} {ch : ConsistentHash}
    (serves : Serves hashFunc virtualNodes Allowed members ch) {nodes : List Bytes}
    {entry : UInt32 × Bytes} (left : entry ∈ (ch.run (nodes.map .removeNode)).ring) :
    entry ∈ ch.ring ∧ ∀ node ∈ nodes, node ∈ members →
      entry.1 ∉ virtualPoints hashFunc virtualNodes node := by
  induction nodes generalizing ch members with
  | nil => exact ⟨left, fun _ listed => absurd listed List.not_mem_nil⟩
  | cons first nodes ih =>
      obtain ⟨onRing, others⟩ := ih (serves.removeNode first) left
      obtain ⟨before, off⟩ := (mem_ring_removeNode first serves.toConsistent).mp onRing
      have firstOff : first ∈ members → entry.1 ∉ virtualPoints hashFunc virtualNodes first := by
        intro present
        rw [← serves.points]
        exact off ((serves.present first).mpr present)
      refine ⟨before, ?_⟩
      intro node listed present
      by_cases same : node = first
      · subst same
        exact firstOff present
      · have later := (List.mem_cons.mp listed).resolve_left same
        exact others node later (Finset.mem_erase.mpr ⟨same, present⟩)

/-- A member all of whose points are shared can be left without a point. -/
theorem exists_unserved {node : Bytes} (family : Allowed node)
    (shared : ∀ point ∈ virtualPoints hashFunc virtualNodes node, ∃ other, Allowed other ∧
      other ≠ node ∧ point ∈ virtualPoints hashFunc virtualNodes other) :
    ∃ updates, (∀ other, .addNode other ∈ updates → Allowed other) ∧ members updates = {node} ∧
      ((new hashFunc virtualNodes).run updates).ring.entries = [] := by
  choose! rival allowed differs point using shared
  -- add the node, add a rival for every point of it, and remove the rivals again
  let rivals := (virtualPoints hashFunc virtualNodes node).map rival
  have others : ∀ other ∈ rivals, Allowed other ∧ other ≠ node := by
    intro other listed
    obtain ⟨point, here, rfl⟩ := List.mem_map.mp listed
    exact ⟨allowed point here, differs point here⟩
  let additions := (node :: rivals).map Update.addNode
  have added : ∀ other, .addNode other ∈ additions → Allowed other := by
    intro other listed
    obtain ⟨_, here, ⟨⟩⟩ := List.mem_map.mp listed
    rcases List.mem_cons.mp here with rfl | rivalNode
    · exact family
    · exact (others other rivalNode).1
  have serves : Serves hashFunc virtualNodes Allowed (members additions)
      ((new hashFunc virtualNodes).run additions) := run_serves added
  have all : ∀ other, .addNode other ∈ additions ++ rivals.map .removeNode → Allowed other := by
    intro other listed
    rcases List.mem_append.mp listed with first | second
    · exact added other first
    · obtain ⟨_, _, impossible⟩ := List.mem_map.mp second
      cases impossible
  have left : members (additions ++ rivals.map .removeNode) = {node} := by
    ext other
    rw [members, List.foldl_append, mem_foldl_removeNode, mem_foldl_addNode, Finset.mem_singleton,
      List.mem_cons]
    constructor
    · rintro ⟨notRival, (same | rivalNode) | impossible⟩
      · exact same
      · exact absurd rivalNode notRival
      · exact absurd impossible (Finset.notMem_empty other)
    · rintro rfl
      exact ⟨fun listed => (others other listed).2 rfl, Or.inl (Or.inl rfl)⟩
  refine ⟨additions ++ rivals.map .removeNode, all, left, ?_⟩
  refine List.eq_nil_iff_forall_not_mem.mpr fun entry onRing => ?_
  have final : Serves hashFunc virtualNodes Allowed (members (additions ++ rivals.map .removeNode))
      ((new hashFunc virtualNodes).run (additions ++ rivals.map .removeNode)) := run_serves all
  obtain ⟨present, listed⟩ := final.owned entry onRing
  have owner : entry.2 = node := by
    have member := (final.present entry.2).mp present
    rw [left] at member
    exact Finset.mem_singleton.mp member
  rw [final.points, owner] at listed
  have split : (new hashFunc virtualNodes).run (additions ++ rivals.map .removeNode) =
      ((new hashFunc virtualNodes).run additions).run (rivals.map .removeNode) :=
    List.foldl_append
  have onRing : entry ∈ (((new hashFunc virtualNodes).run additions).run
      (rivals.map .removeNode)).ring := split ▸ onRing
  have rivalListed : rival entry.1 ∈ rivals := List.mem_map_of_mem listed
  refine (serves.removeNodes onRing).2 (rival entry.1) rivalListed ?_ (point entry.1 listed)
  rw [members, mem_foldl_addNode]
  exact Or.inl (List.mem_cons_of_mem _ rivalListed)

/--
Lookups find a member after every history over a family of names exactly when
every name of the family has a virtual point of its own.
-/
theorem available_iff_private_points (hashFunc : Bytes → UInt32) (virtualNodes : Nat)
    {Allowed : Bytes → Prop} (named : ∀ node, Allowed node → node ≠ []) :
    (∀ updates, (∀ node, .addNode node ∈ updates → Allowed node) → ∀ key,
      (0 < ((new hashFunc virtualNodes).run updates).size →
        ((new hashFunc virtualNodes).run updates).getNode key ∈ members updates) ∧
      (((new hashFunc virtualNodes).run updates).size = 0 →
        ((new hashFunc virtualNodes).run updates).getNode key = [])) ↔
    ∀ node, Allowed node → ∃ i < virtualNodes, ∀ other, Allowed other → other ≠ node →
      ∀ j < virtualNodes,
        hashFunc (virtualNodeKey node i) ≠ hashFunc (virtualNodeKey other j) := by
  constructor
  · intro available node family
    refine Classical.byContradiction fun none => ?_
    have shared : ∀ point ∈ virtualPoints hashFunc virtualNodes node, ∃ other, Allowed other ∧
        other ≠ node ∧ point ∈ virtualPoints hashFunc virtualNodes other := by
      intro point listed
      obtain ⟨i, index, rfl⟩ := mem_virtualPoints.mp listed
      refine Classical.byContradiction fun alone => none ⟨i, index, ?_⟩
      intro other also differs j otherIndex same
      exact alone ⟨other, also, differs, mem_virtualPoints.mpr ⟨j, otherIndex, same.symm⟩⟩
    obtain ⟨updates, added, left, nothing⟩ := exists_unserved family shared
    have serves : Serves hashFunc virtualNodes Allowed (members updates)
        ((new hashFunc virtualNodes).run updates) := run_serves added
    have populated : 0 < ((new hashFunc virtualNodes).run updates).size := by
      rw [size_eq_card serves, left]
      exact Nat.one_pos
    have member := (available updates added []).1 populated
    rw [serves.getNode_of_no_point nothing] at member
    exact named [] (serves.allowed [] member) rfl
  · intro own updates added key
    have serves : Serves hashFunc virtualNodes Allowed (members updates)
        ((new hashFunc virtualNodes).run updates) := run_serves added
    rw [size_eq_card serves]
    constructor
    · intro populated
      obtain ⟨node, member⟩ := Finset.card_pos.mp populated
      obtain ⟨i, index, alone⟩ := own node (serves.allowed node member)
      have onRing : (hashFunc (virtualNodeKey node i), node) ∈
          ((new hashFunc virtualNodes).run updates).ring.entries := by
        refine serves.held node member _ (mem_virtualPoints.mpr ⟨i, index, rfl⟩) ?_
        intro other also shared
        obtain ⟨j, otherIndex, same⟩ := mem_virtualPoints.mp shared
        exact Classical.byContradiction fun differs =>
          alone other also differs j otherIndex same.symm
      rcases serves.getNode_cases key with ⟨nothing, _⟩ | ⟨entry, _, owner, member⟩
      · rw [nothing] at onRing
        cases onRing
      · rw [owner]
        exact member
    · intro nobody
      exact getNode_of_no_member (Finset.card_eq_zero.mp nobody) key

/-- Two names of which every virtual point is their own. -/
theorem available_iff_private_points_smallHistory :
    ((new tailHash 2).run smallHistory).getNode [0x6b] ∈ members smallHistory := by
  have available := (@available_iff_private_points tailHash 2
    (fun node => .addNode node ∈ smallHistory) smallHistory_named).mpr
  refine (available ?_ smallHistory (fun _ added => added) [0x6b]).1 (by decide +kernel)
  intro node added
  refine ⟨0, by decide, ?_⟩
  intro other also differs j index same
  exact differs (virtualNodeKey_injective
    (smallHistory_distinct node other added also 0 (by decide) j index same)).1.symm

/-- Two nodes with the same points: the removal of one leaves the other without a point. -/
theorem member_without_point :
    ((new (fun _ => 0) 150).run
      [.addNode [0x61], .addNode [0x62], .removeNode [0x62]]).size = 1 ∧
    ((new (fun _ => 0) 150).run
      [.addNode [0x61], .addNode [0x62], .removeNode [0x62]]).getNode [0x6b] = [] := by
  decide +kernel

end Shared

end ConsistentHash

end RpcFramework
