import RpcFramework.Codec.ReceiveLoop

/-!
# The RPC server

`RpcServer::onMessage` decodes the buffered packets and answers them: a request
by the response of the handler that is registered for its service and method, a
heartbeat by a heartbeat, a response by nothing.  Handlers are user code: they
may change the state of the program around the server, and they may throw.
-/

namespace RpcFramework.Server

open Codec

variable {World : Type}

/-- How a call of user code ends. -/
inductive Outcome (α : Type) where
  | returned (value : α)
  | exception (what : Bytes)
  | unknown

/-- A handler fills the response that it is given, also when it throws. -/
abbrev MethodHandler (World : Type) :=
  RpcRequest → RpcResponse → World → Outcome Unit × RpcResponse × World

structure RpcService (World : Type) where
  serviceName : Bytes
  methods : AList (fun _ : Bytes => MethodHandler World)

/-- An empty `std::function` is `none`. -/
def RpcService.registerMethod (service : RpcService World) (methodName : Bytes)
    (handler : Option (MethodHandler World)) : RpcService World :=
  match handler with
  | none => service
  | some handler =>
      if methodName.isEmpty then service
      else { service with methods := service.methods.insert methodName handler }

def RpcService.callMethod (service : RpcService World) (methodName : Bytes)
    (request : RpcRequest) (response : RpcResponse) (world : World) :
    Outcome Bool × RpcResponse × World :=
  match service.methods.lookup methodName with
  | none =>
      (.returned false,
        { response with success := false, errorMsg := text "method not found: " ++ methodName },
        world)
  | some handler =>
      let result := handler request response world
      match result.1 with
      | .returned _ => (.returned true, result.2)
      | .exception what => (.exception what, result.2)
      | .unknown => (.unknown, result.2)

/-- `time` reads the clock in seconds. -/
structure RpcServer (World : Type) where
  services : AList (fun _ : Bytes => RpcService World)
  time : World → Int64 × World

/-- A null pointer is `none`. -/
def RpcServer.registerService (server : RpcServer World) (service : Option (RpcService World)) :
    RpcServer World :=
  match service with
  | none => server
  | some service =>
      { server with services := server.services.insert service.serviceName service }

/-- The rest of the program, and the packets that were passed to `conn->send`. -/
structure Session (World : Type) where
  world : World
  sent : List Bytes

def Session.send (session : Session World) (packet : Bytes) : Session World :=
  { session with sent := session.sent ++ [packet] }

/-- The two `catch` clauses around `callMethod`. -/
def caught (outcome : Outcome Bool) (resp : RpcResponse) : RpcResponse :=
  match outcome with
  | .returned _ => resp
  | .exception what =>
      { resp with success := false, errorMsg := text "handler exception: " ++ what }
  | .unknown => { resp with success := false, errorMsg := text "handler unknown exception" }

def statusOf (resp : RpcResponse) : Status := if resp.success then .success else .failed

namespace RpcServer

/-- The body of the loop in `onMessage`. -/
def onPacket (server : RpcServer World) (pb : Protobuf) (decoded : DecodedPacket)
    (session : Session World) : Session World :=
  if decoded.msgType = .heartbeat then
    let now := server.time session.world
    let ack : Heartbeat := ⟨text "server", text "server_node", now.1, ∅⟩
    { session with world := now.2 }.send (encodeHeartbeat ack decoded.reqId)
  else if decoded.msgType ≠ .request then session
  else
    match server.services.lookup decoded.serviceName with
    | none =>
        let resp : RpcResponse := { RpcResponse.cleared with
          success := false
          errorMsg := text "service not found: " ++ decoded.serviceName }
        session.send (encodeResponse pb resp decoded.reqId .failed)
    | some service =>
        let called := service.callMethod decoded.methodName decoded.rpcRequest .cleared
          session.world
        let resp := caught called.1 called.2.1
        { session with world := called.2.2 }.send
          (encodeResponse pb resp decoded.reqId (statusOf resp))

def onMessage (server : RpcServer World) (pb : Protobuf) (buf : Buffer) (decoded : DecodedPacket)
    (session : Session World) : Buffer × Session World :=
  Codec.onMessage pb (server.onPacket pb) buf decoded session

/-- The handler that is registered for a service and a method. -/
def handler (server : RpcServer World) (serviceName methodName : Bytes) :
    Option (MethodHandler World) :=
  (server.services.lookup serviceName).bind fun service => service.methods.lookup methodName

end RpcServer

/-! ## Answers -/

/--
What the server owes for a message, in the words of the protocol: the reply, if
there is one, and the state of the program before and after.
-/
inductive Answer (server : RpcServer World) : Message → World → Option Message → World → Prop
  | heartbeat {hb : Heartbeat} {reqId : UInt64} {world after : World} {now : Int64}
      (read : server.time world = (now, after)) :
      Answer server (.heartbeat hb reqId) world
        (some (.heartbeat ⟨text "server", text "server_node", now, ∅⟩ reqId)) after
  | response {resp : RpcResponse} {reqId : UInt64} {status : Status} {world : World} :
      Answer server (.response resp reqId status) world none world
  | produced {req : RpcRequest} {reqId : UInt64} {serviceName methodName : Bytes}
      {world after : World} {handler : MethodHandler World} {resp : RpcResponse}
      (found : server.handler serviceName methodName = some handler)
      (returned : handler req .cleared world = (.returned (), resp, after)) :
      Answer server (.request req reqId serviceName methodName) world
        (some (.response resp reqId (statusOf resp))) after
  | threw {req : RpcRequest} {reqId : UInt64} {serviceName methodName : Bytes}
      {world after : World} {handler : MethodHandler World} {resp failure : RpcResponse}
      {outcome : Outcome Unit}
      (found : server.handler serviceName methodName = some handler)
      (thrown : handler req .cleared world = (outcome, resp, after))
      (raised : outcome ≠ .returned ()) (failed : failure.success = false) :
      Answer server (.request req reqId serviceName methodName) world
        (some (.response failure reqId .failed)) after
  | unknown {req : RpcRequest} {reqId : UInt64} {serviceName methodName : Bytes} {world : World}
      {failure : RpcResponse} (missing : server.handler serviceName methodName = none)
      (failed : failure.success = false) :
      Answer server (.request req reqId serviceName methodName) world
        (some (.response failure reqId .failed)) world

/-- The answers to messages that come one after another, in their order. -/
inductive Answers (server : RpcServer World) :
    List Message → World → List Message → World → Prop
  | nil {world : World} : Answers server [] world [] world
  | silent {m : Message} {msgs replies : List Message} {world next last : World}
      (here : Answer server m world none next) (later : Answers server msgs next replies last) :
      Answers server (m :: msgs) world replies last
  | reply {m answer : Message} {msgs replies : List Message} {world next last : World}
      (here : Answer server m world (some answer) next)
      (later : Answers server msgs next replies last) :
      Answers server (m :: msgs) world (answer :: replies) last

section Correspondence

variable {server : RpcServer World} (pb : Protobuf)

/-- The loop body on a request. -/
theorem onPacket_request {decoded : DecodedPacket} (kind : decoded.msgType = .request)
    (session : Session World) :
    ∃ resp after,
      Answer server
        (.request decoded.rpcRequest decoded.reqId decoded.serviceName decoded.methodName)
        session.world (some (.response resp decoded.reqId (statusOf resp))) after ∧
      server.onPacket pb decoded session =
        ⟨after, session.sent ++ [encodeResponse pb resp decoded.reqId (statusOf resp)]⟩ := by
  unfold RpcServer.onPacket
  rw [kind, if_neg (by decide), if_neg (by decide)]
  cases known : server.services.lookup decoded.serviceName with
  | none =>
      refine ⟨_, session.world, .unknown ?_ rfl, rfl⟩
      rw [RpcServer.handler, known]
      rfl
  | some service =>
      dsimp only
      unfold RpcService.callMethod
      cases found : service.methods.lookup decoded.methodName with
      | none =>
          refine ⟨_, session.world, .unknown ?_ rfl, rfl⟩
          rw [RpcServer.handler, known]
          exact found
      | some handler =>
          have registered : server.handler decoded.serviceName decoded.methodName =
              some handler := by
            rw [RpcServer.handler, known]
            exact found
          dsimp only
          rcases result : handler decoded.rpcRequest .cleared session.world with
            ⟨_ | what | _, resp, after⟩
          · exact ⟨resp, after, .produced registered result, rfl⟩
          · exact ⟨_, after, .threw registered result nofun rfl, rfl⟩
          · exact ⟨_, after, .threw registered result nofun rfl, rfl⟩

/-- The loop body answers the message that the packet shows. -/
theorem onPacket_answers {m : Message} {decoded : DecodedPacket} (shown : m.ShownBy decoded)
    (session : Session World) :
    ∃ reply after, Answer server m session.world reply after ∧
      server.onPacket pb decoded session =
        ⟨after, session.sent ++ reply.toList.map (Message.encode pb)⟩ := by
  obtain ⟨kind, sameId, content⟩ := shown
  cases m with
  | request req reqId serviceName methodName =>
      obtain ⟨rfl, rfl, rfl⟩ := content
      cases sameId
      obtain ⟨resp, after, answered, sent⟩ := onPacket_request pb kind session
      exact ⟨_, after, answered, sent⟩
  | response resp reqId status =>
      have kind : decoded.msgType = .response := kind
      refine ⟨none, session.world, .response, ?_⟩
      unfold RpcServer.onPacket
      rw [kind, if_neg (by decide), if_pos (by decide), Option.toList_none, List.map_nil,
        List.append_nil]
  | heartbeat hb reqId =>
      refine ⟨_, _, .heartbeat rfl, ?_⟩
      unfold RpcServer.onPacket
      rw [kind, sameId]
      rfl

/-- The packets of a stream of messages are answered one by one. -/
theorem foldl_onPacket_answers {msgs : List Message} {packets : List DecodedPacket}
    (shown : List.Forall₂ Message.ShownBy msgs packets) (session : Session World) :
    ∃ replies after, Answers server msgs session.world replies after ∧
      packets.foldl (fun session packet => server.onPacket pb packet session) session =
        ⟨after, session.sent ++ replies.map (Message.encode pb)⟩ := by
  induction shown generalizing session with
  | nil => exact ⟨[], session.world, .nil, by simp⟩
  | cons first _ ih =>
      obtain ⟨reply, next, answered, step⟩ := onPacket_answers pb first session
      obtain ⟨replies, after, later, rest⟩ := ih ⟨next, session.sent ++ reply.toList.map _⟩
      rw [List.foldl_cons, step, rest]
      cases reply with
      | none => exact ⟨replies, after, .silent answered later, by simp⟩
      | some answer => exact ⟨answer :: replies, after, .reply answered later, by simp⟩

end Correspondence

/--
Requests and replies correspond: for buffered packets within the size limits the
server sends the answers to the messages, in their order, and nothing else; each
of them has the id of the message that it answers and decodes, at a client, to
what the handler produced or to a failure.
-/
theorem onMessage_answers (server : RpcServer World) (pb : Protobuf) {msgs : List Message}
    (limits : ∀ m ∈ msgs, m.WithinLimits) (inverted : ∀ m ∈ msgs, m.Inverted pb)
    (small : ∀ m ∈ msgs, (m.body pb).length ≤ kMaxBodyLen) {buf : Buffer}
    (buffered : buf.readable = msgs.flatMap (Message.encode pb))
    (fits : buf.readableBytes ≤ kMaxBufferSize) (decoded : DecodedPacket)
    (session : Session World) :
    ∃ replies after, Answers server msgs session.world replies after ∧
      (server.onMessage pb buf decoded session).2 =
        ⟨after, session.sent ++ replies.map (Message.encode pb)⟩ ∧
      (server.onMessage pb buf decoded session).1.readable = [] ∧
      ∀ reply ∈ replies, reply.WithinLimits → reply.Inverted pb →
        (reply.body pb).length ≤ kMaxBodyLen → ∀ (client : Buffer) rest anyType anyId,
          client.readable = reply.encode pb ++ rest → client.readableBytes ≤ kMaxBufferSize →
            (decode pb client (.fresh anyType anyId)).1 = true ∧
              reply.Carried (decode pb client (.fresh anyType anyId)).2.2 := by
  obtain ⟨packets, shown, folded, used⟩ := onMessage_handles (server.onPacket pb) limits inverted
    small buffered fits decoded session
  obtain ⟨replies, after, answered, sent⟩ := foldl_onPacket_answers pb shown session
  refine ⟨replies, after, answered, folded.trans sent, used, ?_⟩
  intro reply _ within inverts short client rest anyType anyId received room
  exact decode_encoded within inverts short received room anyType anyId

/-- A service with a method that counts its calls and one that throws. -/
def countingService : RpcService Nat :=
  ((RpcService.mk [0x45] ∅).registerMethod [0x63]
    (some fun request response count =>
      (.returned (), { response with success := true, payload := request.payload },
        count + 1))).registerMethod
    [0x74] (some fun _ response count => (.exception [0x21], response, count))

def countingServer : RpcServer Nat :=
  (RpcServer.mk ∅ fun count => (1700000000, count)).registerService (some countingService)

/-- A request that is answered, one whose handler throws, one to an unknown
service, a response and a heartbeat. -/
def mixedSession : List Message :=
  [.request ⟨[1], ∅⟩ 7 [0x45] [0x63], .request ⟨[2], ∅⟩ 8 [0x45] [0x74],
    .request ⟨[3], ∅⟩ 9 [0x46] [0x63], .response ⟨true, [4], []⟩ 7 .success,
    .heartbeat .cleared 5]

theorem onMessage_answers_mixedSession :
    ∃ replies after, Answers countingServer mixedSession 0 replies after ∧
      (countingServer.onMessage Wire.wireProtobuf
        (Buffer.empty.append (mixedSession.flatMap (Message.encode Wire.wireProtobuf)))
        (.fresh .request 0) ⟨0, []⟩).2 =
          ⟨after, replies.map (Message.encode Wire.wireProtobuf)⟩ := by
  have buffered :
      (Buffer.empty.append (mixedSession.flatMap (Message.encode Wire.wireProtobuf))).readable =
        mixedSession.flatMap (Message.encode Wire.wireProtobuf) :=
    Buffer.readable_empty_append _
  have limits : ∀ m ∈ mixedSession, m.WithinLimits := by
    intro m member
    simp only [mixedSession, List.mem_cons, List.not_mem_nil, or_false] at member
    rcases member with rfl | rfl | rfl | rfl | rfl
    · exact ⟨by decide, by decide⟩
    · exact ⟨by decide, by decide⟩
    · exact ⟨by decide, by decide⟩
    · trivial
    · exact ⟨⟨by decide, by decide, by decide⟩, by decide⟩
  have inverted : ∀ m ∈ mixedSession, m.Inverted Wire.wireProtobuf := by
    intro m member
    simp only [mixedSession, List.mem_cons, List.not_mem_nil, or_false] at member
    rcases member with rfl | rfl | rfl | rfl | rfl
    · exact Wire.inverts_request rfl (by decide)
    · exact Wire.inverts_request rfl (by decide)
    · exact Wire.inverts_request rfl (by decide)
    · exact Wire.inverts_response (by decide) (by decide)
    · trivial
  have small : ∀ m ∈ mixedSession, (m.body Wire.wireProtobuf).length ≤ kMaxBodyLen := by
    decide +kernel
  have fits : (Buffer.empty.append
      (mixedSession.flatMap (Message.encode Wire.wireProtobuf))).readableBytes ≤
        kMaxBufferSize := by
    rw [← Buffer.length_readable, buffered]
    decide +kernel
  obtain ⟨replies, after, answered, sent, _⟩ := onMessage_answers countingServer
    Wire.wireProtobuf limits inverted small buffered fits (.fresh .request 0) ⟨0, []⟩
  exact ⟨replies, after, answered, sent⟩

end RpcFramework.Server
