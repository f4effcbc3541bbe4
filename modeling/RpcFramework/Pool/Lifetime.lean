import RpcFramework.Client.Endpoints
import RpcFramework.Pool.Selection

/-!
# How long the loops of a pool live

`createPool` starts a loop for every client.  The pool owns the loops, and it shares the
clients with those who have acquired them: `createPool` for an endpoint that has a pool
already, and the destructor of the pool, stop the loops and leave the borrowed clients
behind.  A client that cannot connect goes after its loop.

A key of the table tells the endpoint, so that a client is only ever lent for the
endpoint that it connects to.
-/

namespace RpcFramework.Pool

open StepRun
open Client (Dial)

/-! ## Keys -/

theorem toList_loop (bytes : ByteArray) (i : Nat) (read : List UInt8) :
    ByteArray.toList.loop bytes i read = read.reverse ++ bytes.data.toList.drop i := by
  induction left : bytes.size - i generalizing i read with
  | zero =>
      have done : bytes.size ≤ i := by omega
      rw [ByteArray.toList.loop, if_neg (Nat.not_lt.mpr done), List.drop_eq_nil_of_le done,
        List.append_nil]
  | succ left ih =>
      have more : i < bytes.size := by omega
      have entry : bytes.get! i = bytes.data[i] := getElem!_pos bytes.data i more
      rw [ByteArray.toList.loop, if_pos more, ih (i + 1) _ (by omega), List.reverse_cons,
        List.append_assoc, entry, List.drop_eq_getElem_cons more]
      rfl

theorem toList_eq_data (bytes : ByteArray) : bytes.toList = bytes.data.toList :=
  toList_loop bytes 0 []

theorem text_injective {first second : String} (same : text first = text second) :
    first = second := by
  rw [text, text, toList_eq_data, toList_eq_data] at same
  exact String.toByteArray_inj.mp (ByteArray.ext (Array.toList_inj.mp same))

theorem colon_not_mem_digit {digit : Char} (isDigit : digit.isDigit = true) :
    0x3a ∉ String.utf8EncodeChar digit := by
  have every : ∀ k < 58, 48 ≤ k → 0x3a ∉ String.utf8EncodeChar (Char.ofNat k) := by decide
  obtain ⟨low, high⟩ : 48 ≤ digit.toNat ∧ digit.toNat ≤ 57 := by
    simpa [Char.isDigit, UInt32.le_iff_toNat_le] using isDigit
  rw [← Char.ofNat_toNat digit]
  exact every digit.toNat (Nat.lt_succ_of_le high) low

theorem colon_not_mem_port (n : Nat) : 0x3a ∉ text (toString n) := by
  rw [text, toList_eq_data, Nat.toString_eq_ofList_toDigits, String.toUTF8,
    String.toByteArray_ofList, List.utf8Encode, List.toList_data_toByteArray, List.mem_flatMap]
  rintro ⟨digit, listed, colon⟩
  exact colon_not_mem_digit (Nat.isDigit_of_mem_toDigits (by decide) (by decide) listed) colon

theorem makeKey_injective {host other : Bytes} {port otherPort : UInt16}
    (same : makeKey host port = makeKey other otherPort) : host = other ∧ port = otherPort := by
  have colon : text ":" = [0x3a] := by decide +kernel
  rw [makeKey, makeKey, colon, List.append_assoc, List.append_assoc] at same
  obtain ⟨hosts, ports⟩ :=
    Decimal.append_separator_injective (colon_not_mem_port _) (colon_not_mem_port _) same
  have digits := text_injective ports
  rw [Nat.toString_eq_ofList_toDigits, Nat.toString_eq_ofList_toDigits, String.ofList_inj] at digits
  refine ⟨hosts, UInt16.toNat_inj.mp ?_⟩
  rw [← Nat.ofDigitChars_ten_toDigits (n := port.toNat), digits, Nat.ofDigitChars_ten_toDigits]

/-! ## The pool and its borrowers -/

/-- A client, by the `createPool` that made it and its place there.  Its loop is its own
and goes by the same name. -/
structure PooledClient where
  generation : Nat
  index : TcpClientId
  deriving DecidableEq, Repr

structure LivePool where
  generation : Nat
  pool : EndpointPool

/-- A `ConnectionPool` and the pointers to its clients that others hold.  `endpoint` is
the address that the clients of a `createPool` connect to; `usedStopped` says that a
loop has been used when it was stopped. -/
structure SharedPool where
  pools : AList fun _ : Bytes => LivePool
  endpoint : Nat → Bytes × UInt16
  generations : Nat
  borrowed : List PooledClient
  destroyed : Bool
  usedStopped : Bool

namespace SharedPool

def initial : SharedPool := ⟨∅, fun _ => ([], 0), 0, [], false, false⟩

/-- The loop of the client is one of those that the pool owns. -/
def running (s : SharedPool) (client : PooledClient) : Bool :=
  s.pools.entries.any fun entry =>
    entry.2.generation == client.generation && decide (client.index < entry.2.pool.size)

/-- The rounds of the loop in `createPool` that are left, and the connections made. -/
def connectClients (dial : Nat → Dial) : (left made : Nat) → Nat
  | 0, made => made
  | left + 1, made => if dial made = .up then connectClients dial left (made + 1) else made

/-- `valid` says whether `inet_pton` accepts the host.  The client whose connection
fails is destroyed after its loop; those before it are destroyed before theirs. -/
def createPool (s : SharedPool) (host : Bytes) (port : UInt16) (poolSize : Int) (valid : Bool)
    (dial : Nat → Dial) : SharedPool × Bool :=
  if poolSize ≤ 0 then (s, false)
  else if !valid then (s, false)
  else if connectClients dial poolSize.toNat 0 < poolSize.toNat then
    ({ s with generations := s.generations + 1, usedStopped := true }, false)
  else
    ({ s with
      pools := s.pools.insert (makeKey host port)
        ⟨s.generations, poolSize.toNat, fun _ => false, fun _ => true, 0⟩
      endpoint := Function.update s.endpoint s.generations (host, port)
      generations := s.generations + 1 }, true)

/-- A client that is lent with a request to reconnect is in the table, with its loop. -/
def acquire (s : SharedPool) (endpoint : Bytes × UInt16) : Option PooledClient × SharedPool :=
  let key := makeKey endpoint.1 endpoint.2
  match s.pools.lookup key with
  | none => (none, s)
  | some live =>
      let client := live.pool.acquire.1.client.map (PooledClient.mk live.generation)
      (client,
        { s with
          pools := s.pools.insert key { live with pool := live.pool.acquire.2 }
          borrowed := client.toList ++ s.borrowed })

/-- The client is found in the table and not claimed. -/
def found (s : SharedPool) (client : PooledClient) : Bool :=
  s.pools.entries.any fun entry =>
    entry.2.generation == client.generation && decide (client.index < entry.2.pool.size) &&
      !entry.2.pool.claimed client.index

/-- `ensureConnected` is queued in the loop of the client; the caller keeps its pointer. -/
def release (s : SharedPool) (client : PooledClient) : SharedPool :=
  { s with usedStopped := s.usedStopped || (s.found client && !s.running client) }

def poolSize (s : SharedPool) (endpoint : Bytes × UInt16) : Nat :=
  match s.pools.lookup (makeKey endpoint.1 endpoint.2) with
  | none => 0
  | some live => live.pool.size

/-- A holder gives its pointer up; the last one destroys the client, which asks its loop
for the thread. -/
def drop (s : SharedPool) (client : PooledClient) : SharedPool :=
  { s with
    borrowed := s.borrowed.erase client
    usedStopped := s.usedStopped ||
      (decide (client ∉ s.borrowed.erase client) && !s.running client) }

/-- A holder uses the loop of its client, as an `RpcAsyncClient` does for a timer. -/
def use (s : SharedPool) (client : PooledClient) : SharedPool :=
  { s with usedStopped := s.usedStopped || !s.running client }

/-- The flags of the clients of an endpoint change: they are claimed and given back, and
their connections come and go. -/
def change (s : SharedPool) (key : Bytes) (claimed connected : TcpClientId → Bool) : SharedPool :=
  match s.pools.lookup key with
  | none => s
  | some live =>
      { s with
        pools := s.pools.insert key
          { live with pool := { live.pool with claimed := claimed, connected := connected } } }

inductive Event where
  | createPool (host : Bytes) (port : UInt16) (poolSize : Int) (valid : Bool) (dial : Nat → Dial)
  | acquire (endpoint : Bytes × UInt16)
  | change (key : Bytes) (claimed connected : TcpClientId → Bool)
  | use (client : PooledClient)
  | release (client : PooledClient)
  | drop (client : PooledClient)
  | destroy

def step (s : SharedPool) : Event → Option SharedPool
  | .createPool host port poolSize valid dial =>
      if s.destroyed then none else some (s.createPool host port poolSize valid dial).1
  | .acquire endpoint => if s.destroyed then none else some (s.acquire endpoint).2
  | .change key claimed connected => some (s.change key claimed connected)
  | .use client => if client ∈ s.borrowed then some (s.use client) else none
  | .release client =>
      if s.destroyed = false ∧ client ∈ s.borrowed then some (s.release client) else none
  | .drop client => if client ∈ s.borrowed then some (s.drop client) else none
  | .destroy => if s.destroyed then none else some { s with pools := ∅, destroyed := true }

/-! ## What is in the table -/

variable {s next : SharedPool} {key : Bytes} {live : LivePool} {client : PooledClient}

theorem running_iff : s.running client = true ↔
    ∃ key live, s.pools.lookup key = some live ∧ live.generation = client.generation ∧
      client.index < live.pool.size := by
  simp only [running, List.any_eq_true, Bool.and_eq_true, beq_iff_eq, decide_eq_true_eq]
  constructor
  · rintro ⟨⟨key, live⟩, member, own⟩
    exact ⟨key, live, AList.mem_lookup_iff.mpr member, own⟩
  · rintro ⟨key, live, found, own⟩
    exact ⟨⟨key, live⟩, AList.mem_lookup_iff.mp found, own⟩

theorem lookup_insert_cases {pools : AList fun _ : Bytes => LivePool} {other : Bytes}
    {found : LivePool} (listed : (pools.insert key live).lookup other = some found) :
    (other = key ∧ found = live) ∨ (other ≠ key ∧ pools.lookup other = some found) := by
  by_cases same : other = key
  · subst same
    rw [AList.lookup_insert] at listed
    exact Or.inl ⟨rfl, (Option.some.inj listed).symm⟩
  · rw [AList.lookup_insert_ne same] at listed
    exact Or.inr ⟨same, listed⟩

/-- Every pool of the table has a generation of its own and stands under the key of the
endpoint that its clients connect to. -/
structure Inv (s : SharedPool) : Prop where
  older : ∀ key live, s.pools.lookup key = some live → live.generation < s.generations
  distinct : ∀ key other live also, s.pools.lookup key = some live →
    s.pools.lookup other = some also → live.generation = also.generation → key = other
  keyed : ∀ key live, s.pools.lookup key = some live →
    makeKey (s.endpoint live.generation).1 (s.endpoint live.generation).2 = key
  filled : ∀ key live, s.pools.lookup key = some live → 0 < live.pool.size
  known : ∀ client ∈ s.borrowed, client.generation < s.generations

theorem inv_of_empty (empty : s.pools = ∅)
    (known : ∀ client ∈ s.borrowed, client.generation < s.generations) : s.Inv := by
  have nothing : ∀ key live, s.pools.lookup key ≠ some live := by
    intro key live
    rw [empty]
    exact (Option.some_ne_none live).symm
  exact ⟨fun key live found => absurd found (nothing key live),
    fun key _ live _ found => absurd found (nothing key live),
    fun key live found => absurd found (nothing key live),
    fun key live found => absurd found (nothing key live), known⟩

section Replacing

/-! ### Pools that change in place -/

variable (found : s.pools.lookup key = some live) {pool : EndpointPool}
  (size : pool.size = live.pool.size)
include found size

/-- A pool whose clients are where they were stands for what it stood for. -/
theorem lookup_replaced {other : Bytes} {also : LivePool}
    (listed : (s.pools.insert key { live with pool := pool }).lookup other = some also) :
    ∃ before, s.pools.lookup other = some before ∧ before.generation = also.generation ∧
      before.pool.size = also.pool.size := by
  rcases lookup_insert_cases listed with ⟨rfl, rfl⟩ | ⟨_, listed⟩
  · exact ⟨live, found, rfl, size.symm⟩
  · exact ⟨also, listed, rfl, rfl⟩

theorem Inv.replaced (inv : s.Inv) {borrowed : List PooledClient}
    (known : ∀ client ∈ borrowed, client.generation < s.generations) :
    Inv { s with
      pools := s.pools.insert key { live with pool := pool }
      borrowed := borrowed } := by
  refine ⟨?_, ?_, ?_, ?_, known⟩
  · intro other also listed
    obtain ⟨before, there, generation, _⟩ := lookup_replaced found size listed
    exact generation ▸ inv.older other before there
  · intro first second live also listed again same
    obtain ⟨before, there, generation, _⟩ := lookup_replaced found size listed
    obtain ⟨later, here, other, _⟩ := lookup_replaced found size again
    exact inv.distinct first second before later there here
      (generation.trans (same.trans other.symm))
  · intro other also listed
    obtain ⟨before, there, generation, _⟩ := lookup_replaced found size listed
    exact generation ▸ inv.keyed other before there
  · intro other also listed
    obtain ⟨before, there, _, same⟩ := lookup_replaced found size listed
    exact same ▸ inv.filled other before there

theorem running_replaced (borrowed : List PooledClient) (client : PooledClient) :
    running { s with
      pools := s.pools.insert key { live with pool := pool }
      borrowed := borrowed } client = s.running client := by
  rw [Bool.eq_iff_iff, running_iff, running_iff]
  constructor
  · rintro ⟨other, also, listed, generation, below⟩
    obtain ⟨before, there, same, sizes⟩ := lookup_replaced found size listed
    exact ⟨other, before, there, same.trans generation, sizes ▸ below⟩
  · rintro ⟨other, also, listed, generation, below⟩
    by_cases here : other = key
    · subst here
      cases listed.symm.trans found
      exact ⟨other, _, AList.lookup_insert _, generation, size ▸ below⟩
    · exact ⟨other, also, (AList.lookup_insert_ne here).trans listed, generation, below⟩

end Replacing

/-! ### Lending -/

theorem size_acquire (pool : EndpointPool) : pool.acquire.2.size = pool.size := rfl

theorem acquire_lt {pool : EndpointPool} (filled : 0 < pool.size) {t : TcpClientId}
    (lent : pool.acquire.1.client = some t) : t < pool.size := by
  have below : ∀ t ∈ EndpointPool.positions pool.size pool.nextIndex pool.size, t < pool.size := by
    intro t member
    obtain ⟨k, _, rfl⟩ := List.mem_map.mp member
    exact Nat.mod_lt _ filled
  have rounds := pool.rounds_eq pool.size pool.nextIndex none
  rw [EndpointPool.acquire] at lent
  dsimp only at lent
  rw [rounds] at lent
  split at lent
  · next healthy =>
      cases lent
      exact below _ (List.mem_of_find?_eq_some healthy)
  · exact below _ (List.mem_of_find?_eq_some lent)

theorem acquire_eq (s : SharedPool) (endpoint : Bytes × UInt16)
    (found : s.pools.lookup (makeKey endpoint.1 endpoint.2) = some live) :
    s.acquire endpoint =
      (live.pool.acquire.1.client.map (PooledClient.mk live.generation),
        { s with
          pools := s.pools.insert (makeKey endpoint.1 endpoint.2)
            { live with pool := live.pool.acquire.2 }
          borrowed := (live.pool.acquire.1.client.map (PooledClient.mk live.generation)).toList ++
            s.borrowed }) := by
  rw [acquire, found]

theorem Inv.acquire (inv : s.Inv) (endpoint : Bytes × UInt16) : (s.acquire endpoint).2.Inv := by
  cases found : s.pools.lookup (makeKey endpoint.1 endpoint.2) with
  | none =>
      rw [SharedPool.acquire, found]
      exact inv
  | some live =>
      rw [s.acquire_eq endpoint found]
      refine inv.replaced found (size_acquire live.pool) fun client member => ?_
      rcases List.mem_append.mp member with lent | before
      · obtain ⟨t, _, rfl⟩ := Option.map_eq_some_iff.mp (Option.mem_toList.mp lent)
        exact inv.older _ live found
      · exact inv.known client before

theorem Inv.change (inv : s.Inv) (key : Bytes) (claimed connected : TcpClientId → Bool) :
    (s.change key claimed connected).Inv := by
  unfold SharedPool.change
  split
  · exact inv
  · next live found =>
      have size : EndpointPool.size { live.pool with claimed := claimed, connected := connected } =
        live.pool.size := rfl
      exact inv.replaced found size inv.known

/-! ### Creating -/

/-- The loop stops at the first attempt that fails. -/
theorem connectClients_lt_iff (dial : Nat → Dial) (left made : Nat) :
    connectClients dial left made < made + left ↔ ∃ i < left, dial (made + i) ≠ .up := by
  induction left generalizing made with
  | zero => simp [connectClients]
  | succ left ih =>
      rw [connectClients]
      split
      · next up =>
          have rest := ih (made + 1)
          rw [Nat.add_right_comm, Nat.add_assoc] at rest
          rw [rest]
          constructor
          · rintro ⟨i, below, fails⟩
            rw [Nat.add_right_comm, Nat.add_assoc] at fails
            exact ⟨i + 1, Nat.succ_lt_succ below, fails⟩
          · rintro ⟨i, below, fails⟩
            cases i with
            | zero => exact absurd up fails
            | succ i =>
                refine ⟨i, Nat.lt_of_succ_lt_succ below, ?_⟩
                rwa [Nat.add_right_comm, Nat.add_assoc]
      · next fails => exact iff_of_true (by omega) ⟨0, Nat.succ_pos _, fails⟩

/-- The call gets as far as connecting. -/
def Dials (poolSize : Int) (valid : Bool) : Prop := 0 < poolSize ∧ valid = true

/-- What a call of `createPool` comes to: it is turned away, it fails, or it enters a
new pool. -/
theorem createPool_cases (s : SharedPool) (host : Bytes) (port : UInt16) (poolSize : Int)
    (valid : Bool) (dial : Nat → Dial) :
    (¬ Dials poolSize valid ∧ (s.createPool host port poolSize valid dial).1 = s) ∨
    (Dials poolSize valid ∧ (∃ i < poolSize.toNat, dial i ≠ .up) ∧
      (s.createPool host port poolSize valid dial).1 =
        { s with generations := s.generations + 1, usedStopped := true }) ∨
    (Dials poolSize valid ∧ (∀ i < poolSize.toNat, dial i = .up) ∧
      (s.createPool host port poolSize valid dial).1 =
        { s with
          pools := s.pools.insert (makeKey host port)
            ⟨s.generations, poolSize.toNat, fun _ => false, fun _ => true, 0⟩
          endpoint := Function.update s.endpoint s.generations (host, port)
          generations := s.generations + 1 }) := by
  have fails := connectClients_lt_iff dial poolSize.toNat 0
  simp only [Nat.zero_add] at fails
  unfold createPool
  split
  · next small => exact Or.inl ⟨fun dials => absurd dials.1 (Int.not_lt.mpr small), rfl⟩
  · next large =>
      split
      · next invalid => exact Or.inl ⟨fun dials => by simp [dials.2] at invalid, rfl⟩
      · next isValid =>
          have dials : Dials poolSize valid := ⟨Int.not_le.mp large, by simpa using isValid⟩
          split
          · next failed => exact Or.inr (Or.inl ⟨dials, fails.mp failed, rfl⟩)
          · next all =>
              refine Or.inr (Or.inr ⟨dials, fun i below => ?_, rfl⟩)
              by_contra down
              exact all (fails.mpr ⟨i, below, down⟩)

/-- A new pool takes the place of the one that the endpoint had. -/
theorem Inv.created (inv : s.Inv) (host : Bytes) (port : UInt16) {pool : EndpointPool}
    (filled : 0 < pool.size) :
    Inv { s with
      pools := s.pools.insert (makeKey host port) ⟨s.generations, pool⟩
      endpoint := Function.update s.endpoint s.generations (host, port)
      generations := s.generations + 1 } := by
  refine ⟨?_, ?_, ?_, ?_, fun client member => Nat.lt_succ_of_lt (inv.known client member)⟩
  · intro other also listed
    rcases lookup_insert_cases listed with ⟨_, rfl⟩ | ⟨_, before⟩
    · exact Nat.lt_succ_self _
    · exact Nat.lt_succ_of_lt (inv.older other also before)
  · intro first second live also listed again same
    rcases lookup_insert_cases listed with ⟨rfl, rfl⟩ | ⟨_, before⟩
    · rcases lookup_insert_cases again with ⟨here, _⟩ | ⟨_, before⟩
      · exact here.symm
      · exact absurd same (Nat.ne_of_gt (inv.older second also before))
    · rcases lookup_insert_cases again with ⟨_, rfl⟩ | ⟨_, also_before⟩
      · exact absurd same (Nat.ne_of_lt (inv.older first live before))
      · exact inv.distinct first second live also before also_before same
  · intro other also listed
    dsimp only
    rcases lookup_insert_cases listed with ⟨rfl, rfl⟩ | ⟨_, before⟩
    · rw [Function.update_self]
    · rw [Function.update_of_ne (Nat.ne_of_lt (inv.older other also before))]
      exact inv.keyed other also before
  · intro other also listed
    rcases lookup_insert_cases listed with ⟨_, rfl⟩ | ⟨_, before⟩
    · exact filled
    · exact inv.filled other also before

theorem Inv.createPool (inv : s.Inv) (host : Bytes) (port : UInt16) (poolSize : Int) (valid : Bool)
    (dial : Nat → Dial) : (s.createPool host port poolSize valid dial).1.Inv := by
  rcases s.createPool_cases host port poolSize valid dial with
    ⟨_, same⟩ | ⟨_, _, failed⟩ | ⟨dials, _, created⟩
  · rw [same]
    exact inv
  · rw [failed]
    exact ⟨fun key live found => Nat.lt_succ_of_lt (inv.older key live found), inv.distinct,
      inv.keyed, inv.filled, fun client member => Nat.lt_succ_of_lt (inv.known client member)⟩
  · rw [created]
    have filled : 0 < poolSize.toNat := Int.pos_iff_toNat_pos.mp dials.1
    exact inv.created host port filled

theorem Inv.step (inv : s.Inv) {event : Event} (taken : s.step event = some next) : next.Inv := by
  cases event with
  | createPool host port poolSize valid dial =>
      obtain ⟨_, ⟨⟩⟩ := Option.ite_none_left_eq_some.mp taken
      exact inv.createPool host port poolSize valid dial
  | acquire endpoint =>
      obtain ⟨_, ⟨⟩⟩ := Option.ite_none_left_eq_some.mp taken
      exact inv.acquire endpoint
  | change key claimed connected =>
      cases taken
      exact inv.change key claimed connected
  | use client =>
      obtain ⟨_, ⟨⟩⟩ := Option.ite_none_right_eq_some.mp taken
      exact ⟨inv.older, inv.distinct, inv.keyed, inv.filled, inv.known⟩
  | release client =>
      obtain ⟨_, ⟨⟩⟩ := Option.ite_none_right_eq_some.mp taken
      exact ⟨inv.older, inv.distinct, inv.keyed, inv.filled, inv.known⟩
  | drop client =>
      obtain ⟨_, ⟨⟩⟩ := Option.ite_none_right_eq_some.mp taken
      exact ⟨inv.older, inv.distinct, inv.keyed, inv.filled,
        fun other member => inv.known other (List.mem_of_mem_erase member)⟩
  | destroy =>
      obtain ⟨_, ⟨⟩⟩ := Option.ite_none_left_eq_some.mp taken
      exact inv_of_empty rfl inv.known

theorem inv_initial : initial.Inv := inv_of_empty rfl (List.forall_mem_nil _)

theorem inv_of_run {events : List Event} (reached : run? step initial events = some s) : s.Inv :=
  run?_invariant (fun _ _ _ inv taken => Inv.step inv taken) inv_initial reached

/-! ## Clients and endpoints -/

/--
A client that is lent for an endpoint was made by a `createPool` for this endpoint, it
is one of those that `poolSize` counts, and its loop runs.
-/
theorem lent_for_endpoint {events : List Event} (reached : run? step initial events = some s)
    (endpoint : Bytes × UInt16) (lent : (s.acquire endpoint).1 = some client) :
    s.endpoint client.generation = endpoint ∧ client.index < s.poolSize endpoint ∧
      (s.acquire endpoint).2.running client = true := by
  have inv := inv_of_run reached
  cases found : s.pools.lookup (makeKey endpoint.1 endpoint.2) with
  | none =>
      rw [acquire, found] at lent
      cases lent
  | some live =>
      rw [s.acquire_eq endpoint found] at lent ⊢
      obtain ⟨t, chosen, rfl⟩ := Option.map_eq_some_iff.mp lent
      obtain ⟨host, port⟩ := makeKey_injective (inv.keyed _ live found)
      have below : t < live.pool.size := acquire_lt (inv.filled _ live found) chosen
      refine ⟨Prod.ext host port, ?_, ?_⟩
      · rw [poolSize, found]
        exact below
      · rw [running_replaced found (size_acquire live.pool)]
        exact running_iff.mpr ⟨_, live, found, rfl, below⟩

/-! ## Loops that are used when they have been stopped -/

/-- No loop of a borrowed client is stopped, and every attempt to connect succeeds. -/
def Careful (s : SharedPool) : Event → Prop
  | .createPool host port poolSize valid dial => Dials poolSize valid →
      (∀ i < poolSize.toNat, dial i = .up) ∧
        ∀ live, s.pools.lookup (makeKey host port) = some live →
          ∀ client ∈ s.borrowed, client.generation ≠ live.generation
  | .destroy => s.borrowed = []
  | _ => True

/-- No stopped loop has been used, and the borrowed clients have loops that run. -/
def Holds (s : SharedPool) : Prop :=
  s.usedStopped = false ∧ ∀ client ∈ s.borrowed, s.running client = true

/-- Of the clients that are there already, those of the pool that is replaced lose their
loops. -/
theorem Inv.running_created (inv : s.Inv) (host : Bytes) (port : UInt16) (pool : EndpointPool)
    (endpoint : Nat → Bytes × UInt16) (generations : Nat)
    (known : client.generation < s.generations) :
    running { s with
      pools := s.pools.insert (makeKey host port) ⟨s.generations, pool⟩
      endpoint := endpoint
      generations := generations } client = true ↔
      s.running client = true ∧ ∀ live, s.pools.lookup (makeKey host port) = some live →
        client.generation ≠ live.generation := by
  rw [running_iff, running_iff]
  constructor
  · rintro ⟨key, live, listed, generation, below⟩
    rcases lookup_insert_cases listed with ⟨_, rfl⟩ | ⟨elsewhere, before⟩
    · exact absurd generation (Nat.ne_of_gt known)
    · refine ⟨⟨key, live, before, generation, below⟩, fun replaced here same => elsewhere ?_⟩
      exact inv.distinct _ _ live replaced before here (generation.trans same)
  · rintro ⟨⟨key, live, before, generation, below⟩, kept⟩
    have elsewhere : key ≠ makeKey host port := by
      rintro rfl
      exact kept live before generation.symm
    exact ⟨key, live, (AList.lookup_insert_ne elsewhere).trans before, generation, below⟩

theorem Inv.holds_createPool (inv : s.Inv) (host : Bytes) (port : UInt16) (poolSize : Int)
    (valid : Bool) (dial : Nat → Dial) :
    (s.createPool host port poolSize valid dial).1.Holds ↔
      s.Holds ∧ s.Careful (.createPool host port poolSize valid dial) := by
  rcases s.createPool_cases host port poolSize valid dial with
    ⟨refused, same⟩ | ⟨dials, ⟨i, below, fails⟩, failed⟩ | ⟨dials, up, created⟩
  · rw [same]
    exact (and_iff_left fun dials => absurd dials refused).symm
  · rw [failed]
    exact iff_of_false (fun holds => Bool.noConfusion holds.1)
      fun careful => fails ((careful.2 dials).1 i below)
  · rw [created]
    have clients : (∀ client ∈ s.borrowed, running { s with
        pools := s.pools.insert (makeKey host port)
          ⟨s.generations, poolSize.toNat, fun _ => false, fun _ => true, 0⟩
        endpoint := Function.update s.endpoint s.generations (host, port)
        generations := s.generations + 1 } client = true) ↔
        (∀ client ∈ s.borrowed, s.running client = true) ∧
          ∀ live, s.pools.lookup (makeKey host port) = some live →
            ∀ client ∈ s.borrowed, client.generation ≠ live.generation := by
      constructor
      · intro all
        have each := fun client member =>
          (inv.running_created host port _ _ _ (inv.known client member)).mp (all client member)
        exact ⟨fun client member => (each client member).1,
          fun live found client member => (each client member).2 live found⟩
      · rintro ⟨alive, kept⟩ client member
        exact (inv.running_created host port _ _ _ (inv.known client member)).mpr
          ⟨alive client member, fun live found => kept live found client member⟩
    have careful : s.Careful (.createPool host port poolSize valid dial) ↔
        ∀ live, s.pools.lookup (makeKey host port) = some live →
          ∀ client ∈ s.borrowed, client.generation ≠ live.generation :=
      ⟨fun careful => (careful dials).2, fun kept _ => ⟨up, kept⟩⟩
    simp only [Holds, clients, careful, and_assoc]

/-- A client that is lent has a loop, so lending keeps what holds. -/
theorem Inv.holds_acquire (inv : s.Inv) (endpoint : Bytes × UInt16) :
    (s.acquire endpoint).2.Holds ↔ s.Holds := by
  cases found : s.pools.lookup (makeKey endpoint.1 endpoint.2) with
  | none => rw [SharedPool.acquire, found]
  | some live =>
      rw [s.acquire_eq endpoint found]
      have lent : ∀ client ∈
          (live.pool.acquire.1.client.map (PooledClient.mk live.generation)).toList,
          s.running client = true := by
        intro client member
        obtain ⟨t, chosen, rfl⟩ := Option.map_eq_some_iff.mp (Option.mem_toList.mp member)
        exact running_iff.mpr ⟨_, live, found, rfl, acquire_lt (inv.filled _ live found) chosen⟩
      simp only [Holds, running_replaced found (size_acquire live.pool), List.forall_mem_append]
      exact and_congr_right fun _ => and_iff_right lent

theorem holds_change (s : SharedPool) (key : Bytes) (claimed connected : TcpClientId → Bool) :
    (s.change key claimed connected).Holds ↔ s.Holds := by
  unfold change
  split
  · exact Iff.rfl
  · next live found =>
      have size : EndpointPool.size { live.pool with claimed := claimed, connected := connected } =
        live.pool.size := rfl
      have same := running_replaced found size s.borrowed
      simp only [Holds, same]

theorem holds_use (borrowed : client ∈ s.borrowed) : (s.use client).Holds ↔ s.Holds := by
  simp only [Holds, use, Bool.or_eq_false_iff, Bool.not_eq_false', and_assoc]
  exact and_congr_right fun _ => and_iff_right_of_imp fun all => all client borrowed

/-- `release` goes through the table, so the loop of a client that it finds runs. -/
theorem release_eq (s : SharedPool) (client : PooledClient) : s.release client = s := by
  have idle : (s.found client && !s.running client) = false := by
    rw [Bool.and_eq_false_imp]
    intro listed
    simp only [found, List.any_eq_true, Bool.and_eq_true] at listed
    obtain ⟨entry, member, own, _⟩ := listed
    rw [Bool.not_eq_false', running]
    exact List.any_eq_true.mpr ⟨entry, member, Bool.and_eq_true_iff.mpr own⟩
  rw [release, idle, Bool.or_false]

/-- The pointer that is given up was the last one, or the client is still borrowed. -/
theorem holds_drop (borrowed : client ∈ s.borrowed) : (s.drop client).Holds ↔ s.Holds := by
  simp only [Holds, drop, Bool.or_eq_false_iff, Bool.and_eq_false_iff,
    decide_eq_false_iff_not, not_not, Bool.not_eq_false', and_assoc]
  refine and_congr_right fun _ => ?_
  constructor
  · rintro ⟨last, all⟩ other member
    by_cases here : other = client
    · subst here
      exact last.elim (all other) id
    · exact all other ((List.mem_erase_of_ne here).mpr member)
  · intro all
    exact ⟨Or.inr (all client borrowed),
      fun other member => all other (List.mem_of_mem_erase member)⟩

theorem holds_destroy (s : SharedPool) :
    Holds { s with pools := ∅, destroyed := true } ↔ s.Holds ∧ s.Careful .destroy := by
  have stopped : ∀ client, running { s with pools := ∅, destroyed := true } client = false :=
    fun _ => rfl
  simp only [Holds, Careful, stopped, Bool.false_eq_true, and_assoc]
  refine and_congr_right fun _ => ?_
  constructor
  · intro none
    have empty : s.borrowed = [] := List.eq_nil_iff_forall_not_mem.mpr none
    rw [empty]
    exact ⟨List.forall_mem_nil _, rfl⟩
  · rintro ⟨_, empty⟩ client member
    rw [empty] at member
    cases member

theorem Inv.holds_step (inv : s.Inv) {event : Event} (taken : s.step event = some next) :
    next.Holds ↔ s.Holds ∧ s.Careful event := by
  cases event with
  | createPool host port poolSize valid dial =>
      obtain ⟨_, ⟨⟩⟩ := Option.ite_none_left_eq_some.mp taken
      exact inv.holds_createPool host port poolSize valid dial
  | acquire endpoint =>
      obtain ⟨_, ⟨⟩⟩ := Option.ite_none_left_eq_some.mp taken
      exact (inv.holds_acquire endpoint).trans (and_iff_left trivial).symm
  | change key claimed connected =>
      cases taken
      exact (s.holds_change key claimed connected).trans (and_iff_left trivial).symm
  | use client =>
      obtain ⟨borrowed, ⟨⟩⟩ := Option.ite_none_right_eq_some.mp taken
      exact (holds_use borrowed).trans (and_iff_left trivial).symm
  | release client =>
      obtain ⟨_, ⟨⟩⟩ := Option.ite_none_right_eq_some.mp taken
      rw [s.release_eq client]
      exact (and_iff_left trivial).symm
  | drop client =>
      obtain ⟨borrowed, ⟨⟩⟩ := Option.ite_none_right_eq_some.mp taken
      exact (holds_drop borrowed).trans (and_iff_left trivial).symm
  | destroy =>
      obtain ⟨_, ⟨⟩⟩ := Option.ite_none_left_eq_some.mp taken
      exact s.holds_destroy

/--
When every borrowed client has been given back, no stopped loop has been used iff every
`createPool` that tried to connect succeeded, none replaced a pool of which a client was
borrowed, and the pool was destroyed, if at all, with no client borrowed.
-/
theorem pool_loops_used_running_iff {events : List Event} {final : SharedPool}
    (reached : run? step initial events = some final) (back : final.borrowed = []) :
    final.usedStopped = false ↔ Along step Careful initial events := by
  have exact_run := run?_exact_along (fun _ _ _ inv taken => Inv.step inv taken)
    (fun _ _ _ inv taken => inv.holds_step taken) inv_initial reached
  have fresh : initial.Holds := ⟨rfl, List.forall_mem_nil _⟩
  rw [and_iff_right fresh] at exact_run
  rw [← exact_run, Holds, back]
  exact (and_iff_left (List.forall_mem_nil _)).symm

/-! ### Runs -/

/-- Where a run of the pool ends. -/
def after (events : List Event) : SharedPool := (run? step initial events).getD initial

/-- A pool is made again when the client of the first one has been given back. -/
def givenBack : List Event :=
  [.createPool (text "10.0.0.1") 80 1 true fun _ => .up, .acquire (text "10.0.0.1", 80),
    .use ⟨0, 0⟩, .drop ⟨0, 0⟩, .createPool (text "10.0.0.1") 80 2 true fun _ => .up]

theorem lent_for_endpoint_givenBack :
    (after givenBack).endpoint 1 = (text "10.0.0.1", 80) := by
  have reached : run? step initial givenBack = some (after givenBack) :=
    run?_eq_some_getD (by decide +kernel)
  have lent : ((after givenBack).acquire (text "10.0.0.1", 80)).1 = some ⟨1, 0⟩ := by
    decide +kernel
  exact (lent_for_endpoint reached (text "10.0.0.1", 80) lent).1

theorem pool_loops_used_running_iff_givenBack :
    (after givenBack).usedStopped = false ↔ Along step Careful initial givenBack := by
  have reached : run? step initial givenBack = some (after givenBack) :=
    run?_eq_some_getD (by decide +kernel)
  exact pool_loops_used_running_iff reached (by decide +kernel)

/-- The pool is made again with a client borrowed: the loop of the client is gone when
the client is given back. -/
example : (after
    [.createPool (text "10.0.0.1") 80 1 true fun _ => .up, .acquire (text "10.0.0.1", 80),
      .createPool (text "10.0.0.1") 80 2 true fun _ => .up, .drop ⟨0, 0⟩]).usedStopped = true := by
  decide +kernel

end SharedPool

end RpcFramework.Pool
