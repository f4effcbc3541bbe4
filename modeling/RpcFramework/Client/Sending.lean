import RpcFramework.Client.Wiring

/-!
# Where a packet goes

A packet goes to the endpoint that the ring names for its key, or to the one whose
turn it is; whether that endpoint is connected plays no part in the choice.
`disconnect` sets a flag that makes every later send fail, and no `connect` takes it
back.
-/

namespace RpcFramework.Client.LinkedClient

open Codec StepRun

variable {s next : LinkedClient}

/-- `RpcAsyncClient::connected()`. -/
def isConnected (s : LinkedClient) : Bool :=
  if s.endpoints.isEmpty then s.connected
  else s.endpoints.any fun ep => ep.tcpClient.connection == some true

/-! ## The choice of an endpoint -/

/-- The endpoint that the ring names for the key if there is one, and otherwise the one
whose turn it is. -/
def chosenEndpoint (s : LinkedClient) (hashKey : Bytes) : Option Endpoint :=
  (s.hashedEndpoint hashKey).or s.endpoints[s.rrIndex.toNat % s.endpoints.length]?

theorem hashedEndpoint_mem {hashKey : Bytes} {ep : Endpoint}
    (named : s.hashedEndpoint hashKey = some ep) : ep ∈ s.endpoints := by
  unfold hashedEndpoint at named
  split at named
  · split at named
    · cases named
    · exact List.mem_of_find?_eq_some named
  · cases named

theorem chosenEndpoint_mem {hashKey : Bytes} {ep : Endpoint}
    (chosen : s.chosenEndpoint hashKey = some ep) : ep ∈ s.endpoints := by
  rcases Option.or_eq_some_iff.mp chosen with named | ⟨_, turn⟩
  · exact hashedEndpoint_mem named
  · exact List.mem_of_getElem? turn

theorem getTcpClient_eq (nonempty : s.endpoints ≠ []) (hashKey : Bytes) :
    (s.getTcpClient hashKey).2 = (s.chosenEndpoint hashKey).map Endpoint.tcpClient := by
  rw [getTcpClient, if_neg (by simpa using nonempty), chosenEndpoint]
  cases s.hashedEndpoint hashKey with
  | none => rfl
  | some ep => rfl

/-- The packet is handed to an endpoint whose connection is up. -/
def ReachesLive (s : LinkedClient) (hashKey : Bytes) : Prop :=
  ∃ ep ∈ s.endpoints, ep.tcpClient.connection = some true ∧
    (s.sendRequest hashKey).2 = some ep.tcpClient

theorem reachesLive_iff (nonempty : s.endpoints ≠ [])
    (kept : s.disconnecting = false) (hashKey : Bytes) :
    s.ReachesLive hashKey ↔
      ∃ ep, s.chosenEndpoint hashKey = some ep ∧ ep.tcpClient.connection = some true := by
  have sent : (s.sendRequest hashKey).2 = ((s.chosenEndpoint hashKey).map
      Endpoint.tcpClient).filter fun link => link.connection.isSome := by
    rw [sendRequest, getTcpClient_eq nonempty, kept]
    rfl
  rw [ReachesLive, sent]
  constructor
  · rintro ⟨ep, _, up, handed⟩
    obtain ⟨found, _⟩ := Option.filter_eq_some_iff.mp handed
    obtain ⟨chosen, here, same⟩ := Option.map_eq_some_iff.mp found
    exact ⟨chosen, here, by rw [same]; exact up⟩
  · rintro ⟨ep, chosen, up⟩
    refine ⟨ep, chosenEndpoint_mem chosen, up, ?_⟩
    rw [chosen, Option.map_some, Option.filter_some, if_pos]
    rw [up]
    rfl

/-- With round robin, every position of the cursor reaches a connected endpoint only if
every endpoint that a cursor can point to is connected. -/
theorem reachesLive_rr_iff (nonempty : s.endpoints ≠ []) (kept : s.disconnecting = false)
    (policy : s.lbPolicy = .rr) (hashKey : Bytes) :
    (∀ rrIndex, { s with rrIndex := rrIndex }.ReachesLive hashKey) ↔
      ∀ i < 2 ^ 64, ∀ ep, s.endpoints[i]? = some ep → ep.tcpClient.connection = some true := by
  have unnamed : ∀ rrIndex, { s with rrIndex := rrIndex }.hashedEndpoint hashKey = none := by
    intro rrIndex
    unfold hashedEndpoint
    dsimp only
    rw [policy]
  have turn : ∀ rrIndex : UInt64, { s with rrIndex := rrIndex }.chosenEndpoint hashKey =
      s.endpoints[rrIndex.toNat % s.endpoints.length]? := by
    intro rrIndex
    rw [chosenEndpoint, unnamed rrIndex, Option.none_or]
  have exact_turn : ∀ rrIndex : UInt64, { s with rrIndex := rrIndex }.ReachesLive hashKey ↔
      ∃ ep, s.endpoints[rrIndex.toNat % s.endpoints.length]? = some ep ∧
        ep.tcpClient.connection = some true := by
    intro rrIndex
    rw [← turn rrIndex]
    exact @reachesLive_iff { s with rrIndex := rrIndex } nonempty kept hashKey
  constructor
  · intro all i small ep here
    obtain ⟨within, _⟩ := List.getElem?_eq_some_iff.mp here
    obtain ⟨found, chosen, up⟩ := (exact_turn (UInt64.ofNat i)).mp (all _)
    rw [UInt64.toNat_ofNat_of_lt' small, Nat.mod_eq_of_lt within, here] at chosen
    cases chosen
    exact up
  · intro all rrIndex
    have within : rrIndex.toNat % s.endpoints.length < s.endpoints.length :=
      Nat.mod_lt _ (List.length_pos_iff.mpr nonempty)
    refine (exact_turn rrIndex).mpr ⟨_, List.getElem?_eq_getElem within, ?_⟩
    refine all _ ?_ _ (List.getElem?_eq_getElem within)
    exact Nat.lt_of_le_of_lt (Nat.mod_le _ _) rrIndex.toNat_lt

/--
With several endpoints, a packet is handed to one that is connected exactly if the
endpoint that the ring or the cursor chooses is connected.  With round robin, packets
reach a connected endpoint from every position of the cursor only if all endpoints that
a cursor can point to are connected.
-/
theorem failover_iff_chosen_connected (nonempty : s.endpoints ≠ [])
    (kept : s.disconnecting = false) (hashKey : Bytes) :
    (s.ReachesLive hashKey ↔
      ∃ ep, s.chosenEndpoint hashKey = some ep ∧ ep.tcpClient.connection = some true) ∧
    (s.lbPolicy = .rr → ((∀ rrIndex, { s with rrIndex := rrIndex }.ReachesLive hashKey) ↔
      ∀ i < 2 ^ 64, ∀ ep, s.endpoints[i]? = some ep → ep.tcpClient.connection = some true)) :=
  ⟨reachesLive_iff nonempty kept hashKey,
    fun policy => reachesLive_rr_iff nonempty kept policy hashKey⟩

/-- Two nodes that can be reached. -/
def twoNodes : List Node :=
  [⟨text "10.0.0.1", 80, true, .up⟩, ⟨text "10.0.0.2", 80, true, .up⟩]

/-- A client of both nodes whose first connection has been closed. -/
def degraded : LinkedClient :=
  ((owning true true [] none .rr none).connect twoNodes .up).1.setConnection (some 0) none

theorem failover_iff_chosen_connected_degraded :
    { degraded with rrIndex := 1 }.ReachesLive [] := by
  refine (failover_iff_chosen_connected ?_ rfl []).1.mpr ⟨⟨text "10.0.0.2", 80, ⟨1, some true⟩⟩, ?_⟩
  · exact List.cons_ne_nil _ _
  · exact ⟨rfl, rfl⟩

/-- The client is connected, but its packet goes to the endpoint that is down. -/
theorem packet_misses_live_endpoint :
    degraded.endpoints ≠ [] ∧ degraded.isConnected = true ∧ degraded.disconnecting = false ∧
      ¬ degraded.ReachesLive [] := by
  refine ⟨List.cons_ne_nil _ _, rfl, rfl, ?_⟩
  rintro ⟨ep, _, _, handed⟩
  have timed_out : (degraded.sendRequest []).2 = none := rfl
  rw [timed_out] at handed
  cases handed

/-! ## The flag that `disconnect` sets -/

/-- Only `disconnect` sets the flag, and no step takes it back. -/
theorem disconnecting_step {event : Event} (taken : s.step event = some next) :
    next.disconnecting = true ↔ s.disconnecting = true ∨ event = .disconnect := by
  have kept : ∀ {other : Event}, other ≠ .disconnect → next.disconnecting = s.disconnecting →
      (next.disconnecting = true ↔ s.disconnecting = true ∨ other = .disconnect) := by
    intro other differs same
    rw [same, or_iff_left differs]
  cases relinks_of_step taken with
  | connect nodes dial => exact kept Event.noConfusion (s.connect_frame nodes dial).2.1
  | disconnect => exact iff_of_true rfl (Or.inr rfl)
  | connection endpoint connection =>
      cases endpoint with
      | none => exact kept Event.noConfusion rfl
      | some i => exact kept Event.noConfusion rfl
  | kept other => exact kept other rfl

theorem disconnecting_run {events : List Event} (reached : run? step s events = some next) :
    next.disconnecting = true ↔ s.disconnecting = true ∨ .disconnect ∈ events := by
  induction events generalizing s with
  | nil =>
      cases reached
      exact (or_iff_left List.not_mem_nil).symm
  | cons event rest ih =>
      obtain ⟨middle, taken, tail⟩ := run?_cons_eq_some.mp reached
      rw [ih tail, disconnecting_step taken, List.mem_cons, or_assoc, @eq_comm _ event]

theorem isConnected_of_connectDirect (single : s.endpoints = []) {dial : Dial}
    (connects : (s.connectDirect dial).2 = true) : (s.connectDirect dial).1.isConnected = true := by
  unfold connectDirect at connects ⊢
  dsimp only at connects ⊢
  split at connects
  · next valid =>
      rw [if_pos valid]
      cases dial with
      | up =>
          rw [isConnected, single]
          rfl
      | refused => cases connects
      | timeout => cases connects
  · cases connects

theorem isConnected_of_connectViaRegistry {nodes : List Node}
    (connects : (s.connectViaRegistry nodes).2 = true) :
    (s.connectViaRegistry nodes).1.isConnected = true := by
  obtain ⟨loops, new, ring, up, linked⟩ := s.connectNodes_cases nodes
  unfold connectViaRegistry at connects ⊢
  rw [linked] at connects ⊢
  dsimp only at connects ⊢
  split at connects
  · cases connects
  · next grown =>
      rw [if_neg grown]
      cases new with
      | nil => exact absurd (by rw [List.append_nil]) grown
      | cons ep new =>
          rw [isConnected, if_neg (by simp), List.any_append, List.any_cons,
            up ep (List.mem_cons_self ..)]
          simp

/-- A `connect` that returns true leaves the client connected. -/
theorem Wired.isConnected_of_connect (wired : s.Wired) {nodes : List Node} {dial : Dial}
    (connects : (s.connect nodes dial).2 = true) : (s.connect nodes dial).1.isConnected = true := by
  have direct : s.usesRegistry = false → s.endpoints = [] := fun single =>
    List.map_eq_nil_iff.mp (wired.single single)
  unfold LinkedClient.connect at connects ⊢
  split at connects
  · cases connects
  · next valid =>
      rw [if_neg valid]
      split at connects
      · next pooled =>
          rw [if_pos pooled, LinkedClient.isConnected,
            direct (wired.borrowed (by simpa using pooled)).2]
          exact connects
      · next owns =>
          rw [if_neg owns]
          split at connects
          · next registry =>
              rw [if_pos registry]
              exact isConnected_of_connectViaRegistry connects
          · next single =>
              rw [if_neg single]
              exact isConnected_of_connectDirect (direct (Bool.eq_false_iff.mpr single)) connects

/-- With a connection that is up, a packet is sent unless the flag is set. -/
theorem deliver_sent_iff {packet hashKey : Bytes} {link : TcpLink} (encoded : packet ≠ [])
    (chosen : (s.getTcpClient hashKey).2 = some link) (up : link.connection = some true) :
    (s.deliver packet hashKey).2 = .sent ↔ s.disconnecting = false := by
  have some_bytes : packet.isEmpty = false := by simpa using encoded
  rw [deliver, some_bytes, if_neg Bool.false_ne_true]
  dsimp only [sendRequest]
  rw [chosen, Option.filter_some, up]
  cases s.disconnecting with
  | false => exact iff_of_true rfl rfl
  | true => exact iff_of_false nofun nofun

/--
After a `connect` that returned true, and with no later `disconnect`, the packet of
every call whose connection is up is handed to that connection, exactly if the client
has not been disconnected before the `connect`.
-/
theorem reconnected_sends_iff {first middle : LinkedClient} {before : List Event}
    (constructed : first.Constructed) (reached : run? step first before = some middle)
    {nodes : List Node} {dial : Dial} (connects : (middle.connect nodes dial).2 = true) :
    (middle.connect nodes dial).1.isConnected = true ∧
      ∀ later last (call : Outgoing) (link : TcpLink), .disconnect ∉ later →
        run? step (middle.connect nodes dial).1 later = some last → call.packet ≠ [] →
        (last.getTcpClient call.hashKey).2 = some link → link.connection = some true →
        ((last.deliver call.packet call.hashKey).2 = .sent ↔ .disconnect ∉ before) := by
  have wired : middle.Wired :=
    run?_invariant (fun _ _ _ wired taken => wired.step taken) constructed.wired reached
  have fresh : first.disconnecting = false := by
    cases constructed with
    | owning usesRegistry validHost chain circuitBreaker lbPolicy consistentHash => rfl
    | pooled tcpClient claimed chain circuitBreaker =>
        cases tcpClient with
        | none => rfl
        | some connection =>
            cases claimed with
            | false => rfl
            | true => rfl
  refine ⟨wired.isConnected_of_connect connects, ?_⟩
  intro later last call link kept run encoded chosen up
  rw [deliver_sent_iff encoded chosen up, ← Bool.not_eq_true, disconnecting_run run,
    (connect_frame ..).2.1, disconnecting_run reached, fresh]
  simp [kept]

/-- A client in the direct mode without interceptors. -/
def redialClient : LinkedClient := owning false true [] none .rr none

/-- A call whose packet has one byte. -/
def shortCall : Outgoing := ⟨.callback, fun _ => ⟨true, 0, 0⟩, 1000, [1], [], 0⟩

theorem reconnected_sends_iff_redialClient :
    ((redialClient.connect [] .up).1.deliver shortCall.packet shortCall.hashKey).2 = .sent := by
  have sends := reconnected_sends_iff (.owning false true [] none .rr none)
    (show run? step redialClient [] = some redialClient from rfl)
    (show (redialClient.connect [] .up).2 = true from rfl)
  exact (sends.2 [] _ shortCall ⟨0, some true⟩ List.not_mem_nil rfl (List.cons_ne_nil _ _) rfl
    rfl).mpr List.not_mem_nil

/-- After `connect`, `disconnect` and `connect` the client is connected, and a call fails. -/
theorem reconnected_client_cannot_send :
    ((redialClient.connect [] .up).1.disconnect.connect [] .up).2 = true ∧
      ((redialClient.connect [] .up).1.disconnect.connect [] .up).1.isConnected = true ∧
      (((redialClient.connect [] .up).1.disconnect.connect [] .up).1.deliver shortCall.packet
        shortCall.hashKey).2 = .sendFailed :=
  ⟨rfl, rfl, rfl⟩

end RpcFramework.Client.LinkedClient
