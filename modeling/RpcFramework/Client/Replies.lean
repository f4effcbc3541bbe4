import RpcFramework.Client.Calls
import RpcFramework.Codec.Resync
import RpcFramework.Server.RpcServer

/-!
# What the breaker learns from a reply

A reply crosses three components: the server chooses its network status, the codec
carries the status as a byte, and the client records an outcome on its circuit
breaker by it.  The client takes the status as a verdict about the network alone,
but the server derives it from the success flag that the handler has set.
-/

namespace RpcFramework.Client

open Codec Server

/-! ## The reply to a request -/

section Reply

variable {World : Type} {server : RpcServer World} (pb : Protobuf) {decoded : DecodedPacket}
  {session : Server.Session World}

/-- The loop body on a request whose handler returns. -/
theorem onPacket_returned {handler : MethodHandler World} {resp : RpcResponse} {after : World}
    (kind : decoded.msgType = .request)
    (found : server.handler decoded.serviceName decoded.methodName = some handler)
    (returned : handler decoded.rpcRequest .cleared session.world = (.returned (), resp, after)) :
    server.onPacket pb decoded session =
      ⟨after, session.sent ++ [encodeResponse pb resp decoded.reqId (statusOf resp)]⟩ := by
  obtain ⟨service, known, method⟩ := Option.bind_eq_some_iff.mp found
  unfold RpcServer.onPacket
  rw [kind, if_neg (by decide), if_neg (by decide), known]
  dsimp only
  unfold RpcService.callMethod
  rw [method]
  dsimp only
  rw [returned]
  rfl

end Reply

/-! ## The reply at the client -/

section Received

variable {pb : Protobuf} {resp : RpcResponse} {reqId : UInt64} {status : Status}

theorem encodeResponse_ne_nil (encoded : encodeResponse pb resp reqId status ≠ []) :
    ∃ payload, encodeResponse pb resp reqId status = pack .response reqId
      (status.toByte :: (encodeU32 (UInt32.ofNat payload.length) ++ payload)) := by
  unfold encodeResponse encodeResponseBody at encoded ⊢
  cases serialized : pb.serializeResponse resp with
  | none =>
      rw [serialized] at encoded
      exact absurd rfl encoded
  | some payload => exact ⟨payload, rfl⟩

/-- A decoded body shows the status that was encoded. -/
theorem bodyOutcome_response {payload : Bytes} (small : payload.length < 2 ^ 32)
    {packet : DecodedPacket} {body : Bytes}
    (fields : body = status.toByte :: (encodeU32 (UInt32.ofNat payload.length) ++ payload))
    (accepted : (bodyOutcome pb .response reqId body packet).1 = true) :
    (bodyOutcome pb .response reqId body packet).2.msgType = .response ∧
      (bodyOutcome pb .response reqId body packet).2.networkStatus = status := by
  have decodes := decodeResponseBody_encoded pb status small fields packet
  unfold bodyOutcome decodeBody at accepted ⊢
  rw [if_neg (by decide), if_pos rfl, decodes] at accepted ⊢
  by_cases parses : (pb.parseResponse payload).1 = true
  · rw [if_pos parses]
    exact ⟨rfl, rfl⟩
  · rw [if_neg parses] at accepted
    cases accepted

/-- A call that decodes a reply gives a response packet with the status of the reply. -/
theorem decode_reply {buf : Buffer} {rest : Bytes} {packet : DecodedPacket}
    (encoded : encodeResponse pb resp reqId status ≠ [])
    (received : buf.readable = encodeResponse pb resp reqId status ++ rest)
    (accepted : (decode pb buf packet).1 = true) :
    (decode pb buf packet).2.2.msgType = .response ∧
      (decode pb buf packet).2.2.networkStatus = status := by
  obtain ⟨payload, packed⟩ := encodeResponse_ne_nil encoded
  have view := decode_view pb buf packet
  have fits : buf.readable.length ≤ kMaxBufferSize := by
    by_contra! full
    rw [decodeBytes_overflow pb packet full, accepted] at view
    cases view
  rw [received, packed] at view fits
  have bodySmall : (status.toByte :: (encodeU32 (UInt32.ofNat payload.length) ++
      payload)).length ≤ kMaxBodyLen := by
    rw [List.length_append, length_pack] at fits
    have limit : kMaxBufferSize = kMaxBodyLen := rfl
    omega
  have small : payload.length < 2 ^ 32 := by
    rw [List.length_cons, List.length_append] at bodySmall
    have limit : kMaxBodyLen = 10 * 1024 * 1024 := rfl
    omega
  rw [decodeBytes_pack pb .response reqId bodySmall fits packet] at view
  injection view with result tail
  injection tail with left shown
  rw [← shown]
  exact bodyOutcome_response small rfl (result.trans accepted)

end Received

/-- A response packet is recorded by its network status. -/
theorem onPacket_response (client : RpcAsyncClient) {packet : DecodedPacket}
    (kind : packet.msgType = .response) (now : Int) :
    (client.onPacket packet now).circuitBreaker = client.circuitBreaker.map fun cb =>
      if packet.networkStatus == .success then cb.recordSuccess else cb.recordFailure now := by
  rw [RpcAsyncClient.onPacket, if_pos kind]
  rfl

/--
The breaker of every client gets `recordSuccess` for the reply to a request whose
handler has returned iff the handler has set the success flag.
-/
theorem reply_records_success_iff {World : Type} (server : RpcServer World) (pb : Protobuf)
    {decoded : DecodedPacket} {session : Server.Session World} {handler : MethodHandler World}
    {resp : RpcResponse} {after : World} (kind : decoded.msgType = .request)
    (found : server.handler decoded.serviceName decoded.methodName = some handler)
    (returned : handler decoded.rpcRequest .cleared session.world = (.returned (), resp, after))
    {reply : Bytes} (sent : (server.onPacket pb decoded session).sent = session.sent ++ [reply])
    (encoded : reply ≠ []) {buf : Buffer} {rest : Bytes} {packet : DecodedPacket}
    (received : buf.readable = reply ++ rest) (accepted : (decode pb buf packet).1 = true) :
    (∀ (client : RpcAsyncClient) (cb : CircuitBreaker) (now : Int),
      client.circuitBreaker = some cb →
        (client.onPacket (decode pb buf packet).2.2 now).circuitBreaker = some cb.recordSuccess) ↔
      resp.success = true := by
  rw [onPacket_returned pb kind found returned] at sent
  have same : encodeResponse pb resp decoded.reqId (statusOf resp) = reply :=
    List.singleton_inj.mp (List.append_cancel_left sent)
  subst same
  obtain ⟨response, status⟩ := decode_reply encoded received accepted
  constructor
  · intro records
    by_contra failed
    have failing : statusOf resp = .failed := if_neg failed
    have opened := records (.new false [] (some (.new 1 30))) (.new 1 30) 0 rfl
    rw [onPacket_response _ response, status, failing] at opened
    exact absurd opened (by decide)
  · intro success client cb now present
    have successful : statusOf resp = .success := if_pos success
    rw [onPacket_response _ response, status, successful, present]
    rfl

/-- The reply of the counting server to a call of its counting method. -/
theorem reply_records_success_iff_counting :
    let request : DecodedPacket :=
      { DecodedPacket.fresh .request 7 with serviceName := [0x45], methodName := [0x63] }
    let reply := encodeResponse Wire.wireProtobuf ⟨true, [], []⟩ 7 .success
    (∀ (client : RpcAsyncClient) (cb : CircuitBreaker) (now : Int),
      client.circuitBreaker = some cb →
        (client.onPacket (decode Wire.wireProtobuf (Buffer.empty.append reply) request).2.2
          now).circuitBreaker = some cb.recordSuccess) ↔ true = true := by
  intro request reply
  have sent : (countingServer.onPacket Wire.wireProtobuf request ⟨0, []⟩).sent = [reply] := by
    decide +kernel
  have received : (Buffer.empty.append reply).readable = reply ++ [] := by
    decide +kernel
  have accepted :
      (decode Wire.wireProtobuf (Buffer.empty.append reply) request).1 = true := by
    decide +kernel
  exact reply_records_success_iff countingServer Wire.wireProtobuf rfl rfl rfl sent
    (by decide +kernel) received accepted

/-- A service whose only method answers with a business error. -/
def refusingService : RpcService Unit :=
  (RpcService.mk [0x42] ∅).registerMethod [0x77]
    (some fun _ response world =>
      (.returned (), { response with success := false, errorMsg := [0x6e, 0x6f] }, world))

def refusingServer : RpcServer Unit :=
  (RpcServer.mk ∅ fun world => (1700000000, world)).registerService (some refusingService)

def refusedRequest : DecodedPacket :=
  { DecodedPacket.fresh .request 7 with
    serviceName := [0x42]
    methodName := [0x77] }

/-- What the client receives for the request. -/
def refusal : Buffer :=
  Buffer.empty.append
    (refusingServer.onPacket Wire.wireProtobuf refusedRequest ⟨(), []⟩).sent.flatten

/-- The handler returns, and yet a breaker with threshold one opens. -/
theorem business_error_opens_breaker :
    (decode Wire.wireProtobuf refusal (.fresh .request 0)).1 = true ∧
      ((RpcAsyncClient.new false [] (some (.new 1 30))).onPacket
        (decode Wire.wireProtobuf refusal (.fresh .request 0)).2.2 5).circuitBreaker =
          some ((CircuitBreaker.new 1 30).recordFailure 5) ∧
      ((CircuitBreaker.new 1 30).recordFailure 5).state = .opened := by
  decide +kernel

end RpcFramework.Client
