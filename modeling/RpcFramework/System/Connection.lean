import RpcFramework.Codec.Delivery
import RpcFramework.Lib.Simulation
import RpcFramework.System.Exchange

/-!
# A client and a server over a connection

The exchange as it is carried out: calls are encoded into packets and written to
a byte stream, the server reads portions of the stream into its input buffer and
handles the packets that are complete, its replies travel back in another byte
stream, and the client handles them as they are completed by its reads.  The
connection stays up, and the portions may have any size.

If every message and every reply fit into an input buffer together with one more
portion, then this system carries out the exchange of messages.
-/

namespace RpcFramework

open Client Codec Server StepRun Relation Framing

/-- The heartbeat that the timer of `startHeartbeat` sends. -/
def clientHeartbeat (timestamp : Int64) : Message :=
  .heartbeat ⟨text "client", text "node_1", timestamp, ∅⟩ 0

/-- The two ends of a connection and the bytes between them. -/
structure RpcConnection (World : Type) where
  client : RpcAsyncClient
  asked : CallId → Option Asked
  upstream : Bytes
  serverBuffer : Buffer
  world : World
  downstream : Bytes
  clientBuffer : Buffer

namespace RpcConnection

variable {World : Type}

/-- The steps of the calls and timers of the client, a call that encodes and sends its
packet, a heartbeat, and the reads of the two ends.  The packet that a message
callback declares is uninitialised, so it may be any packet; a client that handles
a response reads the clock. -/
inductive Event where
  | client (event : RpcAsyncClient.Event)
  | send (c : CallId) (asked : Asked) (connected : Bool) (now : Int)
  | heartbeat (timestamp : Int64)
  | serverReads (count : Nat) (decoded : DecodedPacket)
  | clientReads (count : Nat) (decoded : DecodedPacket) (clock : RpcAsyncClient → Int)

def initial (chain : List Interceptor) (circuitBreaker : Option CircuitBreaker)
    (world : World) : RpcConnection World :=
  ⟨.new false chain circuitBreaker, fun _ => none, [], .empty, world, [], .empty⟩

/-- `encodeRequest` and `sendRequest` of a call. -/
def send (pb : Protobuf) (s : RpcConnection World) (c : CallId) (asked : Asked)
    (connected : Bool) (now : Int) : Option (RpcConnection World) :=
  let packet := encodeRequest pb asked.request (s.client.calls c).reqId asked.serviceName
    asked.methodName
  if packet.isEmpty then
    (s.client.step (.send c .encodeFailed now)).map fun client => { s with client := client }
  else if connected then
    (s.client.step (.send c .sent now)).map fun client => { s with
      client := client
      asked := Function.update s.asked c (some asked)
      upstream := s.upstream ++ packet }
  else
    (s.client.step (.send c .sendFailed now)).map fun client => { s with client := client }

/-- The server reads a portion, and its message callback runs. -/
def serverReads (server : RpcServer World) (pb : Protobuf) (s : RpcConnection World) (count : Nat)
    (decoded : DecodedPacket) : RpcConnection World :=
  let handled := server.onMessage pb (s.serverBuffer.append (s.upstream.take count)) decoded
    ⟨s.world, []⟩
  { s with
    upstream := s.upstream.drop count
    serverBuffer := handled.1
    world := handled.2.world
    downstream := s.downstream ++ handled.2.sent.flatten }

/-- The client reads a portion, and its message callback runs. -/
def clientReads (pb : Protobuf) (s : RpcConnection World) (count : Nat) (decoded : DecodedPacket)
    (clock : RpcAsyncClient → Int) : RpcConnection World :=
  let handled := onMessage pb (fun packet client => client.onPacket packet (clock client))
    (s.clientBuffer.append (s.downstream.take count)) decoded s.client
  { s with
    downstream := s.downstream.drop count
    clientBuffer := handled.1
    client := handled.2 }

/-- One step.  A read returns at least one byte; packets of the client are handled by
its reads only. -/
def step (server : RpcServer World) (pb : Protobuf) (s : RpcConnection World) :
    Event → Option (RpcConnection World)
  | .client (.send _ _ _) => none
  | .client (.packet _ _) => none
  | .client event => (s.client.step event).map fun client => { s with client := client }
  | .send c asked connected now => s.send pb c asked connected now
  | .heartbeat timestamp =>
      some { s with upstream := s.upstream ++ (clientHeartbeat timestamp).encode pb }
  | .serverReads count decoded =>
      if 0 < count ∧ s.upstream ≠ [] then some (s.serverReads server pb count decoded) else none
  | .clientReads count decoded clock =>
      if 0 < count ∧ s.downstream ≠ [] then some (s.clientReads pb count decoded clock)
      else none

/-! ## What the connection can carry -/

/-- The message and every reply to it can be read in portions of at most `room` bytes. -/
structure Exchangeable (server : RpcServer World) (pb : Protobuf) (room : Nat) (m : Message) :
    Prop where
  carriable : m.Carriable pb room
  answers : ∀ world reply, (server.answer m world).1 = some reply → reply.Carriable pb room

/-- The event sends what the connection can carry and reads at most `room` bytes. -/
def Event.Fits (server : RpcServer World) (pb : Protobuf) (room : Nat) : Event → Prop
  | .client _ => True
  | .send _ asked _ _ => ∀ reqId, Exchangeable server pb room (asked.message reqId)
  | .heartbeat timestamp => Exchangeable server pb room (clientHeartbeat timestamp)
  | .serverReads count _ => count ≤ room
  | .clientReads count _ _ => count ≤ room

/-- The bytes between the ends and in their input buffers are the messages that the
exchange has in its queues. -/
structure Represents (server : RpcServer World) (pb : Protobuf) (room : Nat)
    (s : RpcConnection World) (e : Exchange World) : Prop where
  client : e.client = s.client
  asked : e.asked = s.asked
  world : e.world = s.world
  requests : Carries (Message.encode pb) s.serverBuffer.readable s.upstream e.requests
  replies : Carries (Message.encode pb) s.clientBuffer.readable s.downstream e.replies
  exchangeable : ∀ m ∈ e.requests, Exchangeable server pb room m
  carriable : ∀ m ∈ e.replies, m.Carriable pb room

section Simulation

variable {server : RpcServer World} {pb : Protobuf} {room : Nat}
variable {s next : RpcConnection World} {e : Exchange World}

theorem represents_initial (chain : List Interceptor) (circuitBreaker : Option CircuitBreaker)
    (world : World) :
    Represents server pb room (initial chain circuitBreaker world)
      (Exchange.initial chain circuitBreaker world) where
  client := rfl
  asked := rfl
  world := rfl
  requests := by
    change Carries _ Buffer.empty.readable [] []
    rw [Buffer.readable_empty]
    exact .nothing
  replies := by
    change Carries _ Buffer.empty.readable [] []
    rw [Buffer.readable_empty]
    exact .nothing
  exchangeable _ impossible := absurd impossible List.not_mem_nil
  carriable _ impossible := absurd impossible List.not_mem_nil

/-- A step of the client alone. -/
theorem Represents.clientMoves (rep : Represents server pb room s e)
    {event : RpcAsyncClient.Event} (own : event.Local)
    (taken : (s.client.step event).map (fun client => { s with client := client }) = some next) :
    ∃ after, ReflTransGen (Exchange.Step server) e after ∧
      Represents server pb room next after := by
  obtain ⟨client, moved, rfl⟩ := Option.map_eq_some_iff.mp taken
  rw [← rep.client] at moved
  exact ⟨{ e with client := client }, .single (.client own moved), rfl, rep.asked, rep.world,
    rep.requests, rep.replies, rep.exchangeable, rep.carriable⟩

theorem local_of_step {event : RpcAsyncClient.Event}
    (taken : step server pb s (.client event) = some next) :
    event.Local ∧
      (s.client.step event).map (fun client => { s with client := client }) = some next := by
  cases event with
  | send => cases taken
  | packet => cases taken
  | _ => exact ⟨trivial, taken⟩

theorem Represents.send (rep : Represents server pb room s e) {c : CallId} {asked : Asked}
    {connected : Bool} {now : Int}
    (fits : ∀ reqId, Exchangeable server pb room (asked.message reqId))
    (taken : s.send pb c asked connected now = some next) :
    ∃ after, ReflTransGen (Exchange.Step server) e after ∧
      Represents server pb room next after := by
  have fits := fits (s.client.calls c).reqId
  unfold RpcConnection.send at taken
  dsimp only at taken
  split at taken
  · have own : RpcAsyncClient.Event.Local (.send c .encodeFailed now) :=
      RpcAsyncClient.Sent.noConfusion
    exact rep.clientMoves own taken
  split at taken
  · obtain ⟨client, moved, rfl⟩ := Option.map_eq_some_iff.mp taken
    rw [← rep.client] at moved
    refine ⟨_, .single (.send asked moved), rfl, ?_, rep.world, ?_, rep.replies, ?_, rep.carriable⟩
    · change Function.update e.asked c _ = Function.update s.asked c _
      rw [rep.asked]
    · rw [rep.client]
      exact rep.requests.send fits.carriable.encode_ne_nil
    · intro m member
      rcases List.mem_append.mp member with earlier | new
      · exact rep.exchangeable m earlier
      · rw [List.mem_singleton.mp new, rep.client]
        exact fits
  · have own : RpcAsyncClient.Event.Local (.send c .sendFailed now) :=
      RpcAsyncClient.Sent.noConfusion
    exact rep.clientMoves own taken

/-- The loop of the server over packets that show messages serves the messages. -/
theorem foldl_onPacket_serveAll {msgs : List Message} {packets : List DecodedPacket}
    (shown : List.Forall₂ Message.ShownBy msgs packets) (session : Server.Session World) :
    packets.foldl (fun session packet => server.onPacket pb packet session) session =
      ⟨(Exchange.serveAll server msgs session.world).2, session.sent ++
        (Exchange.serveAll server msgs session.world).1.map (Message.encode pb)⟩ := by
  induction shown generalizing session with
  | nil => simp [Exchange.serveAll]
  | cons here _ ih =>
      rw [List.foldl_cons, server.onPacket_eq_answer pb here, ih]
      simp [Exchange.serveAll]

theorem carriable_serveAll {msgs : List Message}
    (exchangeable : ∀ m ∈ msgs, Exchangeable server pb room m) (world : World) :
    ∀ reply ∈ (Exchange.serveAll server msgs world).1, reply.Carriable pb room := by
  induction msgs generalizing world with
  | nil => exact fun _ impossible => absurd impossible List.not_mem_nil
  | cons m msgs ih =>
      intro reply member
      rcases List.mem_append.mp member with here | later
      · exact (exchangeable m (List.mem_cons_self ..)).answers world reply
          (Option.mem_toList.mp here)
      · exact ih (fun other among => exchangeable other (List.mem_cons_of_mem _ among)) _ reply later

/-- Replies that are sent one after another are on the link behind the earlier ones. -/
theorem carries_sendAll {buffered inFlight : Bytes} {queued msgs : List Message}
    (carries : Carries (Message.encode pb) buffered inFlight queued)
    (carriable : ∀ m ∈ msgs, m.Carriable pb room) :
    Carries (Message.encode pb) buffered (inFlight ++ msgs.flatMap (Message.encode pb))
      (queued ++ msgs) := by
  induction msgs generalizing inFlight queued with
  | nil =>
      rw [List.flatMap_nil, List.append_nil, List.append_nil]
      exact carries
  | cons m msgs ih =>
      have first := carries.send (carriable m (List.mem_cons_self ..)).encode_ne_nil
      have later := ih first fun other among => carriable other (List.mem_cons_of_mem _ among)
      rw [List.append_assoc, List.append_assoc] at later
      exact later

theorem Represents.serverReads (rep : Represents server pb room s e) {count : Nat}
    (portion : count ≤ room) (decoded : DecodedPacket) :
    ∃ after, ReflTransGen (Exchange.Step server) e after ∧
      Represents server pb room (s.serverReads server pb count decoded) after := by
  obtain ⟨settled, later, packets, split, shown, handled, left⟩ :=
    onMessage_delivers (server.onPacket pb) rep.requests
      (fun m member => (rep.exchangeable m member).carriable) portion decoded ⟨s.world, []⟩
  rw [foldl_onPacket_serveAll shown, List.nil_append] at handled
  obtain ⟨served, moves⟩ := Exchange.moves_serveAll server split
  have exchangeable : ∀ m ∈ settled, Exchangeable server pb room m := fun m member =>
    rep.exchangeable m (by rw [split]; exact List.mem_append_left _ member)
  have replies := carriable_serveAll exchangeable s.world
  refine ⟨_, moves, rep.client, rep.asked, ?_, ?_, ?_, ?_, ?_⟩
  · unfold RpcConnection.serverReads RpcServer.onMessage
    dsimp only
    rw [handled, rep.world]
  · exact left
  · unfold RpcConnection.serverReads RpcServer.onMessage
    dsimp only
    rw [handled, rep.world]
    exact carries_sendAll rep.replies replies
  · exact fun m member => rep.exchangeable m (by rw [split]; exact List.mem_append_right _ member)
  · intro m member
    rcases List.mem_append.mp member with earlier | new
    · exact rep.carriable m earlier
    · rw [rep.world] at new
      exact replies m new

theorem Represents.clientReads (rep : Represents server pb room s e) {count : Nat}
    (portion : count ≤ room) (decoded : DecodedPacket) (clock : RpcAsyncClient → Int) :
    ∃ after, ReflTransGen (Exchange.Step server) e after ∧
      Represents server pb room (s.clientReads pb count decoded clock) after := by
  obtain ⟨settled, later, packets, split, shown, handled, left⟩ :=
    onMessage_delivers (fun packet client => RpcAsyncClient.onPacket client packet (clock client))
      rep.replies rep.carriable portion decoded s.client
  have moves := Exchange.moves_seeAll server shown clock split
  refine ⟨_, moves, ?_, rep.asked, rep.world, rep.requests, left, rep.exchangeable, ?_⟩
  · rw [rep.client]
    exact handled.symm
  · exact fun m member => rep.carriable m (by rw [split]; exact List.mem_append_right _ member)

/-- Every step that fits is carried out by steps of the exchange. -/
theorem simulates_exchange :
    Simulates (step server pb) (fun _ event => event.Fits server pb room) (Exchange.Step server)
      (Represents server pb room) := by
  intro s event next e rep fits taken
  cases event with
  | client event =>
      obtain ⟨own, moved⟩ := local_of_step taken
      exact rep.clientMoves own moved
  | send c asked connected now => exact rep.send fits taken
  | heartbeat timestamp =>
      cases taken
      have fits : Exchangeable server pb room (clientHeartbeat timestamp) := fits
      refine ⟨_, .single (.heartbeat _ 0), rep.client, rep.asked, rep.world,
        rep.requests.send fits.carriable.encode_ne_nil, rep.replies, ?_, rep.carriable⟩
      intro m member
      rcases List.mem_append.mp member with earlier | new
      · exact rep.exchangeable m earlier
      · rw [List.mem_singleton.mp new]
        exact fits
  | serverReads count decoded =>
      rw [step] at taken
      split at taken
      · cases taken
        exact rep.serverReads fits decoded
      · cases taken
  | clientReads count decoded clock =>
      rw [step] at taken
      split at taken
      · cases taken
        exact rep.clientReads fits decoded clock
      · cases taken

end Simulation

/-! ## End to end -/

section EndToEnd

variable {server : RpcServer World} {pb : Protobuf} {room : Nat}
variable {chain : List Interceptor} {circuitBreaker : Option CircuitBreaker} {world : World}
variable {events : List Event} {final : RpcConnection World}

/-- A call of the counting method, a heartbeat behind it, reads that cut the packets, and
the handler of the response. -/
def countAsked : Asked := ⟨⟨[1], ∅⟩, [0x45], [0x63]⟩

def countedRun : List Event :=
  [.client (.asyncCall .callback), .client (.register 0), .client (.arm 0 true),
    .send 0 countAsked true 0, .heartbeat 7, .serverReads 20 (.fresh .heartbeat 0),
    .serverReads 64 (.fresh .heartbeat 0), .clientReads 30 (.fresh .heartbeat 0) fun _ => 0,
    .clientReads 64 (.fresh .heartbeat 0) fun _ => 0, .client (.settle 0)]

theorem respond_countAsked (count : Nat) :
    countingServer.respond countAsked.request countAsked.serviceName countAsked.methodName count =
      ((⟨true, [1], []⟩, .success), count + 1) := rfl

theorem exchangeable_countAsked (reqId : UInt64) :
    Exchangeable countingServer Wire.wireProtobuf 64 (countAsked.message reqId) := by
  constructor
  · refine .of_body ⟨by decide, by decide⟩ (Wire.inverts_request rfl (by decide)) ?_
    change kFixedHeaderSize + ((countAsked.message 0).body Wire.wireProtobuf).length +
      kChecksumSize + 64 ≤ _
    decide +kernel
  · intro count reply answered
    have only : reply = .response ⟨true, [1], []⟩ reqId .success := by
      change some (Message.response (countingServer.respond _ _ _ count).1.1 reqId _) = _ at answered
      rw [respond_countAsked] at answered
      exact (Option.some.inj answered).symm
    rw [only]
    refine .of_body trivial (Wire.inverts_response (by decide) (by decide)) ?_
    change kFixedHeaderSize +
      ((Message.response ⟨true, [1], []⟩ 0 .success).body Wire.wireProtobuf).length +
        kChecksumSize + 64 ≤ _
    decide +kernel

theorem exchangeable_clientHeartbeat :
    Exchangeable countingServer Wire.wireProtobuf 64 (clientHeartbeat 7) := by
  constructor
  · refine .of_body ⟨⟨by decide +kernel, by decide +kernel, List.forall_mem_nil _⟩, ?_⟩ trivial ?_
    · exact Nat.zero_le _
    · decide +kernel
  · rintro count reply ⟨⟩
    refine .of_body ⟨⟨?_, ?_, List.forall_mem_nil _⟩, Nat.zero_le _⟩ trivial ?_
    · change (text "server").length ≤ _
      decide +kernel
    · change (text "server_node").length ≤ _
      decide +kernel
    change kFixedHeaderSize +
      ((Message.heartbeat ⟨text "server", text "server_node", 1700000000, ∅⟩ 0).body
        Wire.wireProtobuf).length + kChecksumSize + 64 ≤ _
    decide +kernel

theorem countedRun_fits :
    ∀ event ∈ countedRun, event.Fits countingServer Wire.wireProtobuf 64 := by
  intro event member
  simp only [countedRun, List.mem_cons, List.not_mem_nil, or_false] at member
  rcases member with rfl | rfl | rfl | rfl | rfl | rfl | rfl | rfl | rfl | rfl
  · trivial
  · trivial
  · trivial
  · exact exchangeable_countAsked
  · exact exchangeable_clientHeartbeat
  · exact (by decide : 20 ≤ 64)
  · exact Nat.le_refl 64
  · exact (by decide : 30 ≤ 64)
  · exact Nat.le_refl 64
  · trivial

theorem countedRun_reaches :
    ∃ final, run? (step countingServer Wire.wireProtobuf) (initial [] none 0) countedRun =
        some final ∧
      final.upstream = [] ∧ final.downstream = [] ∧ final.client.handlers = [] ∧
      final.world = 1 ∧ final.client.issued = 1 := by
  have outcome : ((run? (step countingServer Wire.wireProtobuf) (initial [] none 0)
      countedRun).map fun s => (s.upstream.isEmpty, s.downstream.isEmpty,
        s.client.handlers.isEmpty, s.world, s.client.issued)) = some (true, true, true, 1, 1) := by
    decide +kernel
  obtain ⟨final, reached, shown⟩ := Option.map_eq_some_iff.mp outcome
  simp only [Prod.mk.injEq, List.isEmpty_iff] at shown
  exact ⟨final, reached, shown⟩

/-- The connection carries out an exchange that started in the state of the program. -/
def Exchanging (server : RpcServer World) (pb : Protobuf) (room : Nat) (start : World)
    (s : RpcConnection World) : Prop :=
  ∃ e : Exchange World, Represents server pb room s e ∧ e.Inv server start

theorem Exchanging.step {start : World} {s next : RpcConnection World} {event : Event}
    (exchanging : s.Exchanging server pb room start) (fits : event.Fits server pb room)
    (taken : step server pb s event = some next) : next.Exchanging server pb room start := by
  obtain ⟨e, rep, inv⟩ := exchanging
  obtain ⟨after, moves, represented⟩ := simulates_exchange s event next e rep fits taken
  exact ⟨after, represented, moves_invariant (fun _ _ inv step => inv.step step) inv moves⟩

theorem exchanging_of_run (fits : ∀ event ∈ events, event.Fits server pb room)
    (reached : run? (RpcConnection.step server pb) (initial chain circuitBreaker world) events =
      some final) :
    final.Exchanging server pb room world :=
  run?_invariant_along (fun _ _ _ exchanging fits taken => exchanging.step fits taken)
    ⟨_, represents_initial chain circuitBreaker world,
      Exchange.inv_initial chain circuitBreaker world⟩
    (.of_forall fits _) reached

theorem Exchanging.completed {start : World} {s : RpcConnection World}
    (exchanging : s.Exchanging server pb room start) (few : s.client.issued < 2 ^ 64)
    (upstream : s.upstream = []) (downstream : s.downstream = [])
    (handlers : s.client.handlers = []) {c : CallId} {asked : Asked}
    (sent : s.asked c = some asked) : ∃ cause, (s.client.calls c).completions = [cause] := by
  obtain ⟨e, rep, inv⟩ := exchanging
  have requests := rep.requests
  have replies := rep.replies
  rw [upstream] at requests
  rw [downstream] at replies
  rw [← rep.client] at few handlers ⊢
  rw [← rep.asked] at sent
  exact inv.completed_of_delivered few requests.drained replies.drained handlers sent

/-- The server has served every request at most once, one after another, and a response
that a call has heard is the server's answer to the request of that call. -/
theorem heard_own_answer (fits : ∀ event ∈ events, event.Fits server pb room)
    (reached : run? (RpcConnection.step server pb) (initial chain circuitBreaker world) events =
      some final)
    (few : final.client.issued < 2 ^ 64) :
    ∃ served, Exchange.Serves server world served final.world ∧
      (Exchange.requestIds (served.map Prod.fst)).Nodup ∧
      ∀ c reqId status resp, Cause.response reqId status resp ∈
        (final.client.calls c).completions ++ (final.client.calls c).returned →
          ∃ asked, final.asked c = some asked ∧ (final.client.calls c).reqId = reqId ∧
            (asked.message reqId, some (Message.response resp reqId status)) ∈ served := by
  obtain ⟨e, rep, inv⟩ := exchanging_of_run fits reached
  rw [← rep.client, ← rep.asked, ← rep.world]
  rw [← rep.client] at few
  refine ⟨e.served, inv.history, ?_, fun c reqId status resp heard => inv.own_answer few heard⟩
  have once := inv.once few
  rw [Exchange.sent, Exchange.requestIds, List.filterMap_append] at once
  exact once.of_append_left

theorem heard_own_answer_countedRun :
    ∃ final served, run? (RpcConnection.step countingServer Wire.wireProtobuf) (initial [] none 0)
        countedRun = some final ∧
      Exchange.Serves countingServer 0 served final.world ∧
      (Exchange.requestIds (served.map Prod.fst)).Nodup := by
  obtain ⟨final, reached, _, _, _, _, issued⟩ := countedRun_reaches
  obtain ⟨served, serves, once, _⟩ :=
    heard_own_answer countedRun_fits reached (by rw [issued]; decide)
  exact ⟨final, served, reached, serves, once⟩

/-- The steps that only move on what is under way. -/
def Event.Delivers : Event → Prop
  | .serverReads _ _ => True
  | .clientReads _ _ _ => True
  | .client (.settle _) => True
  | _ => False

theorem issued_foldl_onPacket (clock : RpcAsyncClient → Int) (packets : List DecodedPacket)
    (client : RpcAsyncClient) :
    (packets.foldl (fun client packet => client.onPacket packet (clock client)) client).issued =
      client.issued := by
  induction packets generalizing client with
  | nil => rfl
  | cons packet packets ih =>
      rw [List.foldl_cons, ih, RpcAsyncClient.onPacket]
      split <;> rfl

theorem clientReads_issued {start : World} {s : RpcConnection World}
    (exchanging : s.Exchanging server pb room start) {count : Nat} (portion : count ≤ room)
    (decoded : DecodedPacket) (clock : RpcAsyncClient → Int) :
    (s.clientReads pb count decoded clock).client.issued = s.client.issued := by
  obtain ⟨e, rep, _⟩ := exchanging
  obtain ⟨_, _, packets, _, _, handled, _⟩ :=
    onMessage_delivers (fun packet client => RpcAsyncClient.onPacket client packet (clock client))
      rep.replies rep.carriable portion decoded s.client
  unfold RpcConnection.clientReads
  dsimp only
  rw [handled]
  exact issued_foldl_onPacket clock packets s.client

/-- One more step towards an empty connection: the server reads, then the client
reads, then the handlers run. -/
theorem Exchanging.progress {start : World} {s : RpcConnection World}
    (exchanging : s.Exchanging server pb room start) (some_room : 0 < room) :
    (s.upstream = [] ∧ s.downstream = [] ∧ s.client.handlers = []) ∨
    ∃ event next, (event.Fits server pb room ∧ event.Delivers) ∧
      RpcConnection.step server pb s event = some next ∧
      (next.Exchanging server pb room start ∧ next.asked = s.asked ∧
        next.client.issued = s.client.issued) ∧
      Prod.Lex (· < ·) (Prod.Lex (· < ·) (· < ·))
        (next.upstream.length, next.downstream.length, next.client.handlers.length)
        (s.upstream.length, s.downstream.length, s.client.handlers.length) := by
  have shorter : ∀ {stream : Bytes}, stream ≠ [] → (stream.drop room).length < stream.length := by
    intro stream nonempty
    rw [List.length_drop]
    exact Nat.sub_lt (List.length_pos_iff.mpr nonempty) some_room
  by_cases upstream : s.upstream = []
  · by_cases downstream : s.downstream = []
    · cases handlers : s.client.handlers with
      | nil => exact Or.inl ⟨upstream, downstream, rfl⟩
      | cons handler others =>
          obtain ⟨next, settled, left, sameIssued⟩ := RpcAsyncClient.settle_first handlers
          have taken : RpcConnection.step server pb s (.client (.settle 0)) =
              some { s with client := next } := by
            change (s.client.step (.settle 0)).map _ = _
            rw [settled]
            rfl
          have fits : Event.Fits server pb room (.client (.settle 0)) := trivial
          refine Or.inr ⟨.client (.settle 0), _, ⟨fits, trivial⟩, taken,
            ⟨exchanging.step fits taken, rfl, sameIssued⟩, ?_⟩
          refine .right _ (.right _ ?_)
          rw [left]
          exact Nat.lt_succ_self _
    · let read : Event := .clientReads room (.fresh .heartbeat 0) fun _ => 0
      have fits : read.Fits server pb room := Nat.le_refl room
      have taken : RpcConnection.step server pb s read = some _ :=
        if_pos ⟨some_room, downstream⟩
      refine Or.inr ⟨read, _, ⟨fits, trivial⟩, taken,
        ⟨exchanging.step fits taken, rfl, clientReads_issued exchanging fits _ _⟩, ?_⟩
      exact .right _ (.left _ _ (shorter downstream))
  · let read : Event := .serverReads room (.fresh .heartbeat 0)
    have fits : read.Fits server pb room := Nat.le_refl room
    have taken : RpcConnection.step server pb s read = some _ := if_pos ⟨some_room, upstream⟩
    refine Or.inr ⟨read, _, ⟨fits, trivial⟩, taken, ⟨exchanging.step fits taken, rfl, rfl⟩, ?_⟩
    exact .left _ _ (shorter upstream)

end EndToEnd

end RpcConnection

end RpcFramework
