import Mathlib.Data.List.Rotate
import RpcFramework.Lib.Mealy
import RpcFramework.Pool.Acquire
import RpcFramework.Protocol.Messages

/-!
# The client that a pool selects

`ConnectionPool::acquire` as one call, with the flags of the clients as it finds
them.  Each round of its loop moves the shared cursor on; a client that is free and
connected ends the loop, and the first free one is remembered.

As long as the cursor does not wrap, as many rounds as there are clients meet each
of them once, so nothing is missed.  The rounds are those of the borrowers in
`Lending` when nothing else happens in between.
-/

namespace RpcFramework.Pool

open Lending (index)

/-- The clients of an endpoint: whether they are claimed and whether they are connected.
`nextIndex` counts the uses of the cursor; the source keeps it modulo `2 ^ 64`. -/
structure EndpointPool where
  size : Nat
  claimed : TcpClientId → Bool
  connected : TcpClientId → Bool
  nextIndex : Nat

/-- The returned client, and the one whose `ensureConnected` was called. -/
structure Acquired where
  client : Option TcpClientId
  reconnect : Option TcpClientId

namespace EndpointPool

/-- The loop, with the rounds that are left, and the cursor after it. -/
def rounds (pool : EndpointPool) :
    (left nextIndex : Nat) → Option TcpClientId → Acquired × Nat
  | 0, nextIndex, fallback => (⟨fallback, fallback⟩, nextIndex)
  | left + 1, nextIndex, fallback =>
      let idx := index pool.size nextIndex
      if pool.claimed idx then pool.rounds left (nextIndex + 1) fallback
      else if pool.connected idx then (⟨some idx, none⟩, nextIndex + 1)
      else pool.rounds left (nextIndex + 1) (fallback.or (some idx))

def acquire (pool : EndpointPool) : Acquired × EndpointPool :=
  let (acquired, nextIndex) := pool.rounds pool.size pool.nextIndex none
  (acquired, { pool with nextIndex := nextIndex })

/-- The clients from the cursor on. -/
def cyclicOrder (pool : EndpointPool) : List TcpClientId :=
  (List.range pool.size).rotate (pool.nextIndex % 2 ^ 64)

def free (pool : EndpointPool) (t : TcpClientId) : Bool := !pool.claimed t

def healthy (pool : EndpointPool) (t : TcpClientId) : Bool := pool.free t && pool.connected t

end EndpointPool

def makeKey (host : Bytes) (port : UInt16) : Bytes :=
  host ++ text ":" ++ text (toString port.toNat)

abbrev ConnectionPool := AList fun _ : Bytes => EndpointPool

def ConnectionPool.acquire (pools : ConnectionPool) (endpoint : Bytes × UInt16) :
    Acquired × ConnectionPool :=
  let key := makeKey endpoint.1 endpoint.2
  match pools.lookup key with
  | none => (⟨none, none⟩, pools)
  | some pool => (pool.acquire.1, pools.insert key pool.acquire.2)

/-! ## Rounds and positions -/

namespace EndpointPool

/-- The clients at consecutive positions of the cursor. -/
def positions (size nextIndex left : Nat) : List TcpClientId :=
  (List.range left).map fun k => index size (nextIndex + k)

theorem positions_succ (size nextIndex left : Nat) :
    positions size nextIndex (left + 1) =
      index size nextIndex :: positions size (nextIndex + 1) left := by
  unfold positions
  rw [List.range_succ_eq_map, List.map_cons, List.map_map, Nat.add_zero]
  congr 1
  apply List.map_congr_left
  intro k _
  simp only [Function.comp_apply, Nat.succ_eq_add_one, Nat.add_assoc, Nat.add_comm 1]

/-- The loop finds the first healthy client, or the first free one. -/
theorem rounds_eq (pool : EndpointPool) (left nextIndex : Nat) (fallback : Option TcpClientId) :
    (pool.rounds left nextIndex fallback).1 =
      match (positions pool.size nextIndex left).find? pool.healthy with
      | some t => ⟨some t, none⟩
      | none =>
          let free := fallback.or ((positions pool.size nextIndex left).find? pool.free)
          ⟨free, free⟩ := by
  induction left generalizing nextIndex fallback with
  | zero => simp [rounds, positions]
  | succ left ih =>
      have found := ih (nextIndex + 1)
      rw [rounds, positions_succ]
      dsimp only
      cases claimed : pool.claimed (index pool.size nextIndex) with
      | true =>
          have taken : ¬ pool.free (index pool.size nextIndex) = true := by simp [free, claimed]
          have unhealthy : ¬ pool.healthy (index pool.size nextIndex) = true := by
            simp [healthy, free, claimed]
          rw [if_pos rfl, List.find?_cons_of_neg unhealthy, List.find?_cons_of_neg taken, found]
      | false =>
          have isFree : pool.free (index pool.size nextIndex) = true := by simp [free, claimed]
          rw [if_neg Bool.false_ne_true]
          cases connected : pool.connected (index pool.size nextIndex) with
          | true =>
              have isHealthy : pool.healthy (index pool.size nextIndex) = true := by
                simp [healthy, isFree, connected]
              rw [if_pos rfl, List.find?_cons_of_pos isHealthy]
          | false =>
              have unhealthy : ¬ pool.healthy (index pool.size nextIndex) = true := by
                simp [healthy, connected]
              rw [if_neg Bool.false_ne_true, List.find?_cons_of_neg unhealthy,
                List.find?_cons_of_pos isFree, found, Option.or_assoc, Option.some_or]

theorem drop_positions (size nextIndex skipped left : Nat) :
    (positions size nextIndex (skipped + left)).drop skipped =
      positions size (nextIndex + skipped) left := by
  induction skipped generalizing nextIndex with
  | zero => rw [Nat.zero_add, List.drop_zero, Nat.add_zero]
  | succ skipped ih =>
      rw [Nat.succ_add, positions_succ, List.drop_succ_cons, ih, Nat.add_assoc, Nat.add_comm 1]

/-- Without a wrap the positions go round once. -/
theorem positions_eq_cyclicOrder {size nextIndex : Nat}
    (inRange : nextIndex % 2 ^ 64 + size ≤ 2 ^ 64) :
    positions size nextIndex size = (List.range size).rotate (nextIndex % 2 ^ 64) := by
  apply List.ext_getElem
  · simp [positions]
  · intro k first second
    have below : k < size := by simpa [positions] using first
    have unwrapped : (nextIndex + k) % 2 ^ 64 = nextIndex % 2 ^ 64 + k := by omega
    simp only [positions, List.getElem_map, List.getElem_range, List.getElem_rotate,
      List.length_range]
    rw [index, unwrapped, Nat.add_comm]

theorem acquire_eq (pool : EndpointPool) (inRange : pool.nextIndex % 2 ^ 64 + pool.size ≤ 2 ^ 64) :
    pool.acquire.1 =
      match pool.cyclicOrder.find? pool.healthy with
      | some t => ⟨some t, none⟩
      | none => ⟨pool.cyclicOrder.find? pool.free, pool.cyclicOrder.find? pool.free⟩ := by
  have found := pool.rounds_eq pool.size pool.nextIndex none
  rw [positions_eq_cyclicOrder inRange] at found
  exact found

theorem mem_cyclicOrder {pool : EndpointPool} {t : TcpClientId} :
    t ∈ pool.cyclicOrder ↔ t < pool.size := by
  rw [cyclicOrder, List.mem_rotate, List.mem_range]

/-- The client that is returned is the first healthy one or the first free one. -/
theorem client_acquire (pool : EndpointPool)
    (inRange : pool.nextIndex % 2 ^ 64 + pool.size ≤ 2 ^ 64) :
    pool.acquire.1.client =
      (pool.cyclicOrder.find? pool.healthy).or (pool.cyclicOrder.find? pool.free) := by
  rw [pool.acquire_eq inRange]
  cases pool.cyclicOrder.find? pool.healthy with
  | none => rfl
  | some t => rfl

theorem free_of_client (pool : EndpointPool)
    (inRange : pool.nextIndex % 2 ^ 64 + pool.size ≤ 2 ^ 64) {t : TcpClientId}
    (returned : pool.acquire.1.client = some t) : t < pool.size ∧ pool.free t = true := by
  rw [pool.client_acquire inRange, Option.or_eq_some_iff] at returned
  rcases returned with found | ⟨_, found⟩
  · have isHealthy : pool.healthy t = true := List.find?_some found
    exact ⟨mem_cyclicOrder.mp (List.mem_of_find?_eq_some found),
      (Bool.and_eq_true_iff.mp isHealthy).1⟩
  · exact ⟨mem_cyclicOrder.mp (List.mem_of_find?_eq_some found), List.find?_some found⟩

theorem client_eq_none_iff (pool : EndpointPool)
    (inRange : pool.nextIndex % 2 ^ 64 + pool.size ≤ 2 ^ 64) :
    pool.acquire.1.client = none ↔ ∀ t < pool.size, pool.claimed t = true := by
  rw [pool.client_acquire inRange, Option.or_eq_none_iff, List.find?_eq_none, List.find?_eq_none]
  constructor
  · rintro ⟨_, taken⟩ t below
    have notFree := taken t (mem_cyclicOrder.mpr below)
    simpa [free] using notFree
  · intro claimed
    constructor
    · intro t member
      simp [healthy, free, claimed t (mem_cyclicOrder.mp member)]
    · intro t member
      simp [free, claimed t (mem_cyclicOrder.mp member)]

/-- All clients are free and connected. -/
def Healthy (pool : EndpointPool) : Prop := ∀ t < pool.size, pool.healthy t = true

/-- The first round ends the call. -/
theorem acquire_healthy {pool : EndpointPool} (nonempty : 0 < pool.size) (healthy : pool.Healthy) :
    pool.acquire =
      (⟨some (index pool.size pool.nextIndex), none⟩,
        { pool with nextIndex := pool.nextIndex + 1 }) := by
  have first := healthy (index pool.size pool.nextIndex) (Nat.mod_lt _ nonempty)
  simp only [EndpointPool.healthy, free, Bool.and_eq_true, Bool.not_eq_true'] at first
  obtain ⟨left, size⟩ := Nat.exists_eq_add_of_lt nonempty
  rw [Nat.zero_add] at size
  unfold acquire
  nth_rewrite 1 [size]
  rw [rounds]
  simp [first]

end EndpointPool

namespace ConnectionPool

variable {pools : ConnectionPool} {endpoint : Bytes × UInt16} {pool : EndpointPool}

/-- Call after call, the healthy clients of an endpoint are returned in turn. -/
theorem clients_acquire (found : pools.lookup (makeKey endpoint.1 endpoint.2) = some pool)
    (nonempty : 0 < pool.size) (healthy : pool.Healthy) (calls : Nat) :
    (Mealy.outputs acquire pools (List.replicate calls endpoint)).map Acquired.client =
      (EndpointPool.positions pool.size pool.nextIndex calls).map some := by
  induction calls generalizing pools pool with
  | zero => rfl
  | succ calls ih =>
      have call : pools.acquire endpoint =
          (⟨some (index pool.size pool.nextIndex), none⟩,
            pools.insert (makeKey endpoint.1 endpoint.2)
              { pool with nextIndex := pool.nextIndex + 1 }) := by
        rw [acquire, found]
        dsimp only
        rw [EndpointPool.acquire_healthy nonempty healthy]
      have later := @ih _ { pool with nextIndex := pool.nextIndex + 1 }
        (AList.lookup_insert pools) nonempty healthy
      rw [List.replicate_succ, Mealy.outputs, call, EndpointPool.positions_succ, List.map_cons,
        List.map_cons]
      exact congrArg _ later

end ConnectionPool

/--
Selection is complete: `acquire` returns the first client from the cursor on that is
free and connected; if there is none, the first free one, after requesting a
reconnect for it; and nothing only if all clients are claimed.  It never returns a
claimed client.  On a pool of free and connected clients, any run of as many calls as
there are clients returns each of them once.
-/
theorem acquire_complete {pools : ConnectionPool} {endpoint : Bytes × UInt16} {pool : EndpointPool}
    (found : pools.lookup (makeKey endpoint.1 endpoint.2) = some pool) (nonempty : 0 < pool.size)
    (inRange : pool.nextIndex % 2 ^ 64 + pool.size ≤ 2 ^ 64) :
    ((pools.acquire endpoint).1 =
      match pool.cyclicOrder.find? pool.healthy with
      | some t => ⟨some t, none⟩
      | none => ⟨pool.cyclicOrder.find? pool.free, pool.cyclicOrder.find? pool.free⟩) ∧
    ((pools.acquire endpoint).1.client = none ↔ ∀ t < pool.size, pool.claimed t = true) ∧
    (∀ t, (pools.acquire endpoint).1.client = some t → t < pool.size ∧ pool.claimed t = false) ∧
    (pool.Healthy → ∀ skipped, pool.nextIndex % 2 ^ 64 + skipped + pool.size ≤ 2 ^ 64 →
      (((Mealy.outputs ConnectionPool.acquire pools
        (List.replicate (skipped + pool.size) endpoint)).drop skipped).map Acquired.client).Perm
          ((List.range pool.size).map some)) := by
  have acquired : (pools.acquire endpoint).1 = pool.acquire.1 := by
    rw [ConnectionPool.acquire, found]
  rw [acquired]
  refine ⟨pool.acquire_eq inRange, pool.client_eq_none_iff inRange, ?_, ?_⟩
  · intro t returned
    obtain ⟨below, free⟩ := pool.free_of_client inRange returned
    exact ⟨below, by simpa [EndpointPool.free] using free⟩
  · intro healthy skipped unwrapped
    have later : (pool.nextIndex + skipped) % 2 ^ 64 + pool.size ≤ 2 ^ 64 := by omega
    rw [List.map_drop, ConnectionPool.clients_acquire found nonempty healthy, ← List.map_drop,
      EndpointPool.drop_positions, EndpointPool.positions_eq_cyclicOrder later]
    exact (List.rotate_perm _ _).map some

/-- Three free clients, the second of which is not connected; the cursor is there. -/
def oneDown : EndpointPool := ⟨3, fun _ => false, fun t => t != 1, 4⟩

/-- A pool with this endpoint only. -/
def oneEndpoint : ConnectionPool := AList.singleton (makeKey (text "127.0.0.1") 8888) oneDown

theorem acquire_complete_oneDown :
    (oneEndpoint.acquire (text "127.0.0.1", 8888)).1 = ⟨some 2, none⟩ := by
  have found : oneEndpoint.lookup (makeKey (text "127.0.0.1") 8888) = some oneDown :=
    List.dlookup_cons_eq _ _ _
  have nonempty : 0 < oneDown.size := by decide
  have inRange : oneDown.nextIndex % 2 ^ 64 + oneDown.size ≤ 2 ^ 64 := by decide
  exact (@acquire_complete oneEndpoint (text "127.0.0.1", 8888) oneDown found nonempty inRange).1

/-! ## The rounds of a borrower -/

namespace Lending

open StepRun

/-- Without other events in between, the call of a borrower ends as one call of `acquire`
with this result does. -/
def Completes (borrowers : Nat) (pool : EndpointPool) (s : Lending) (b : Address)
    (result : Acquired × Nat) : Prop :=
  ∃ events final cursor,
    run? (step pool.size borrowers pool.connected) s events = some final ∧
    (∀ event ∈ events, event = .probe ∨ event = .fallBack) ∧ final.mutex = none ∧
    final.phase b = .holding result.1.client cursor ∧ final.nextIndex = result.2

theorem Completes.probe {borrowers : Nat} {pool : EndpointPool} {s next : Lending} {b : Address}
    {result : Acquired × Nat} (completes : Completes borrowers pool next b result)
    (probed : step pool.size borrowers pool.connected s .probe = some next) :
    Completes borrowers pool s b result := by
  obtain ⟨events, final, cursor, reached, kinds, rest⟩ := completes
  exact ⟨.probe :: events, final, cursor, run?_cons_eq_some.mpr ⟨next, probed, reached⟩,
    List.forall_mem_cons.mpr ⟨.inl rfl, kinds⟩, rest⟩

theorem completes_rounds {borrowers : Nat} {pool : EndpointPool} {s : Lending} {b : Address}
    {visited : List TcpClientId} {fallback : Option TcpClientId} {left : Nat}
    (locked : s.mutex = some b) (acquiring : s.phase b = .acquiring visited fallback)
    (claimed : pool.claimed = fun t => isClaimed (s.clients.owner t))
    (count : visited.length + left = pool.size) :
    Completes borrowers pool s b (pool.rounds left s.nextIndex fallback) := by
  induction left generalizing s visited fallback with
  | zero =>
      have done : ¬ visited.length < pool.size := by omega
      have fell : step pool.size borrowers pool.connected s .fallBack =
          some { s.setPhase b (.holding fallback s.nextIndex) with mutex := none } := by
        simp only [step, locked, acquiring]
        rw [if_neg done]
      refine ⟨[.fallBack], _, s.nextIndex, run?_cons_eq_some.mpr ⟨_, fell, rfl⟩,
        by simp, rfl, Function.update_self .., rfl⟩
  | succ left ih =>
      have more : visited.length < pool.size := by omega
      have probed : step pool.size borrowers pool.connected s .probe =
          some (s.probe pool.size pool.connected b visited fallback) := by
        simp only [step, locked, acquiring]
        rw [if_pos more]
      have moved : (index pool.size s.nextIndex :: visited).length + left = pool.size := by
        rw [List.length_cons]
        omega
      rw [EndpointPool.rounds, congrFun claimed]
      unfold Lending.probe at probed
      dsimp only at probed
      split
      · next taken =>
          rw [if_pos taken] at probed
          refine Completes.probe ?_ probed
          exact ih locked (Function.update_self ..) claimed moved
      · next free =>
          rw [if_neg free] at probed
          split
          · next isConnected =>
              rw [if_pos isConnected] at probed
              exact ⟨[.probe], _, s.nextIndex, run?_cons_eq_some.mpr ⟨_, probed, rfl⟩,
                by simp, rfl, Function.update_self .., rfl⟩
          · next disconnected =>
              rw [if_neg disconnected] at probed
              refine Completes.probe ?_ probed
              exact ih locked (Function.update_self ..) claimed moved

end Lending

end RpcFramework.Pool
