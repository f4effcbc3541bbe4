import RpcFramework.Codec.Packets
import RpcFramework.Lib.Framing
import RpcFramework.Protocol.Wire

/-!
# Streams of packets

A sender concatenates encoded messages; a receiver gets the stream in chunks of
any sizes, appends each to its buffer and decodes until a call fails.  Within
the size limits of the decoder every packet is a delimited frame, so what the
receiver obtains does not depend on the chunks.
-/

namespace RpcFramework.Codec

/-- The arguments of one of the three encoders. -/
inductive Message where
  | request (req : RpcRequest) (reqId : UInt64) (serviceName methodName : Bytes)
  | response (resp : RpcResponse) (reqId : UInt64) (status : Status)
  | heartbeat (hb : Heartbeat) (reqId : UInt64)

namespace Message

def msgType : Message → MsgType
  | .request .. => .request
  | .response .. => .response
  | .heartbeat .. => .heartbeat

def reqId : Message → UInt64
  | .request _ reqId _ _ => reqId
  | .response _ reqId _ => reqId
  | .heartbeat _ reqId => reqId

def body (pb : Protobuf) : Message → Bytes
  | .request req _ serviceName methodName => encodeRequestBody pb req serviceName methodName
  | .response resp _ status => encodeResponseBody pb resp status
  | .heartbeat hb _ => encodeHeartbeatBody hb

def encode (pb : Protobuf) : Message → Bytes
  | .request req reqId serviceName methodName =>
      encodeRequest pb req reqId serviceName methodName
  | .response resp reqId status => encodeResponse pb resp reqId status
  | .heartbeat hb reqId => encodeHeartbeat hb reqId

/-- The packet carries the message: its type, its id and its content. -/
def Carried (m : Message) (packet : DecodedPacket) : Prop :=
  packet.msgType = m.msgType ∧ packet.reqId = m.reqId ∧
    match m with
    | .request req _ serviceName methodName =>
        packet.rpcRequest = req ∧ packet.serviceName = serviceName ∧
          packet.methodName = methodName
    | .response resp _ status => packet.rpcResponse = resp ∧ packet.networkStatus = status
    | .heartbeat hb _ => packet.heartbeat.SameContent hb

/-- Names, keys and values of at most 65535 bytes, and at most 65535 extras. -/
def WithinLimits : Message → Prop
  | .request _ _ serviceName methodName =>
      serviceName.length ≤ 65535 ∧ methodName.length ≤ 65535
  | .response _ _ _ => True
  | .heartbeat hb _ => ShortStrings hb ∧ hb.extra.entries.length ≤ 65535

/-- The protobuf runtime parses what it serialized. -/
def Inverted (pb : Protobuf) : Message → Prop
  | .request req _ _ _ => pb.InvertsRequest req
  | .response resp _ _ => pb.InvertsResponse resp
  | .heartbeat _ _ => True

/-- The protobuf runtime parses what it serialized to nothing else. -/
def Kept (pb : Protobuf) : Message → Prop
  | .request req _ _ _ => pb.KeepsRequest req
  | .response resp _ _ => pb.KeepsResponse resp
  | .heartbeat _ _ => True

theorem Inverted.kept {pb : Protobuf} {m : Message} (inverted : m.Inverted pb) : m.Kept pb := by
  cases m with
  | request req reqId serviceName methodName => exact Protobuf.InvertsRequest.keeps inverted
  | response resp reqId status => exact Protobuf.InvertsResponse.keeps inverted
  | heartbeat hb reqId => exact inverted

theorem encode_eq (pb : Protobuf) (m : Message) :
    m.encode pb = if (m.body pb).isEmpty then [] else pack m.msgType m.reqId (m.body pb) := by
  cases m with
  | request req reqId serviceName methodName => rfl
  | response resp reqId status => rfl
  | heartbeat hb reqId => rfl

theorem encode_of_body {pb : Protobuf} {m : Message} (encoded : m.body pb ≠ []) :
    m.encode pb = pack m.msgType m.reqId (m.body pb) := by
  rw [encode_eq, if_neg (by simpa using encoded)]

/-- A message within the limits is encoded. -/
theorem body_of_limits {pb : Protobuf} {m : Message} (limits : m.WithinLimits)
    (inverted : m.Inverted pb) : m.body pb ≠ [] := by
  cases m with
  | request req reqId serviceName methodName =>
      obtain ⟨payload, serialized, _⟩ := inverted
      simp [body, encodeRequestBody, appendString_eq limits.1, appendString_eq limits.2,
        serialized, stringField, encodeU16, BigEndian.bigEndian]
  | response resp reqId status =>
      obtain ⟨payload, serialized, _⟩ := inverted
      simp [body, encodeResponseBody, serialized]
  | heartbeat hb reqId =>
      rw [body, encodeHeartbeatBody_eq limits.1]
      simp [heartbeatFields, stringField, encodeU16, BigEndian.bigEndian]

end Message

/-! ## Bodies of messages -/

theorem acceptedBody_request (pb : Protobuf) (reqId : UInt64)
    {serviceName methodName payload : Bytes}
    (shortService : serviceName.length ≤ 65535) (shortMethod : methodName.length ≤ 65535)
    (small : payload.length < 2 ^ 32) {body : Bytes}
    (fields : body = stringField serviceName ++ (stringField methodName ++
      (encodeU32 (UInt32.ofNat payload.length) ++ payload))) :
    acceptedBody pb .request reqId body =
      if (pb.parseRequest payload).1 then
        some { DecodedPacket.fresh .request reqId with
          serviceName := serviceName
          methodName := methodName
          rpcRequest := (pb.parseRequest payload).2 }
      else none := by
  have outcome := decodeRequestBody_encoded pb shortService shortMethod small fields
    (.fresh .request reqId)
  simp only [acceptedBody, bodyOutcome, decodeBody, if_true, outcome]
  cases (pb.parseRequest payload).1 with
  | false => rfl
  | true => rfl

theorem acceptedBody_response (pb : Protobuf) (reqId : UInt64) (status : Status)
    {payload : Bytes} (small : payload.length < 2 ^ 32) {body : Bytes}
    (fields : body = status.toByte :: (encodeU32 (UInt32.ofNat payload.length) ++ payload)) :
    acceptedBody pb .response reqId body =
      if (pb.parseResponse payload).1 then
        some { DecodedPacket.fresh .response reqId with
          rpcResponse := (pb.parseResponse payload).2
          networkStatus := status }
      else none := by
  have outcome := decodeResponseBody_encoded pb status small fields (.fresh .response reqId)
  simp only [acceptedBody, bodyOutcome, decodeBody, if_true, if_false, MsgType.toByte_inj,
    reduceCtorEq, outcome]
  cases (pb.parseResponse payload).1 with
  | false => rfl
  | true => rfl

/-- A heartbeat with more extras than its count can say is refused. -/
theorem acceptedBody_heartbeat (pb : Protobuf) (reqId : UInt64) {hb : Heartbeat}
    (short : ShortStrings hb) :
    acceptedBody pb .heartbeat reqId (heartbeatFields hb) =
      if hb.extra.entries.length < 65536 then
        some { DecodedPacket.fresh .heartbeat reqId with
          heartbeat := ⟨hb.serviceName, hb.nodeId, hb.timestamp,
            hb.extra.entries.foldl (fun map entry => map.insert entry.1 entry.2) ∅⟩ }
      else none := by
  have outcome := decodeHeartbeatBody_encoded short (.fresh .heartbeat reqId)
  dsimp only at outcome
  by_cases counted : hb.extra.entries.length < 65536
  · rw [Nat.mod_eq_of_lt counted, List.take_length, if_neg (by simp)] at outcome
    rw [if_pos counted]
    simp only [acceptedBody, bodyOutcome, decodeBody, if_false, MsgType.toByte_inj, reduceCtorEq,
      outcome]
    rfl
  · have fewer : (extrasField (hb.extra.entries.take (hb.extra.entries.length % 65536))).length ≠
        (extrasField hb.extra.entries).length :=
      Nat.ne_of_lt (length_extrasField_take_lt
        (Nat.lt_of_lt_of_le (Nat.mod_lt _ (by decide)) (Nat.le_of_not_lt counted)))
    rw [if_pos fewer] at outcome
    rw [if_neg counted]
    simp only [acceptedBody, bodyOutcome, decodeBody, if_false, MsgType.toByte_inj, reduceCtorEq,
      outcome]
    rfl

theorem payload_lt {payload pre body : Bytes} (small : body.length ≤ kMaxBodyLen)
    (fields : body = pre ++ payload) : payload.length < 2 ^ 32 := by
  have size := congrArg List.length fields
  rw [List.length_append] at size
  unfold kMaxBodyLen at small
  omega

/-- The payload of an encoded request, whose length the body can say. -/
theorem encodeRequestBody_payload {pb : Protobuf} {req : RpcRequest} {serviceName methodName : Bytes}
    (encoded : encodeRequestBody pb req serviceName methodName ≠ [])
    (small : (encodeRequestBody pb req serviceName methodName).length ≤ kMaxBodyLen) :
    ∃ payload, pb.serializeRequest req = some payload ∧
      serviceName.length ≤ 65535 ∧ methodName.length ≤ 65535 ∧ payload.length < 2 ^ 32 ∧
      encodeRequestBody pb req serviceName methodName =
        stringField serviceName ++ (stringField methodName ++
          (encodeU32 (UInt32.ofNat payload.length) ++ payload)) := by
  obtain ⟨payload, serialized, shortService, shortMethod, fields⟩ :=
    encodeRequestBody_ne_nil encoded
  refine ⟨payload, serialized, shortService, shortMethod, ?_, fields⟩
  apply payload_lt small
  rw [fields, ← List.append_assoc, ← List.append_assoc]

/-- The payload of an encoded response. -/
theorem encodeResponseBody_payload {pb : Protobuf} {resp : RpcResponse} {status : Status}
    (encoded : encodeResponseBody pb resp status ≠ [])
    (small : (encodeResponseBody pb resp status).length ≤ kMaxBodyLen) :
    ∃ payload, pb.serializeResponse resp = some payload ∧ payload.length < 2 ^ 32 ∧
      encodeResponseBody pb resp status =
        status.toByte :: (encodeU32 (UInt32.ofNat payload.length) ++ payload) := by
  obtain ⟨payload, serialized, fields⟩ := encodeResponseBody_ne_nil encoded
  refine ⟨payload, serialized, ?_, fields⟩
  apply payload_lt small
  rw [fields, ← List.cons_append]

namespace Message

/-- The packet that the body of the message decodes to, if it is accepted. -/
def verdict (pb : Protobuf) (m : Message) : Option DecodedPacket :=
  acceptedBody pb m.msgType m.reqId (m.body pb)

/-- An accepted body carries the message it was encoded from. -/
theorem carried_of_accepted {pb : Protobuf} {m : Message} (kept : m.Kept pb)
    (encoded : m.body pb ≠ []) (small : (m.body pb).length ≤ kMaxBodyLen)
    {packet : DecodedPacket} (accepted : m.verdict pb = some packet) :
    m.Carried packet := by
  cases m with
  | request req reqId serviceName methodName =>
      obtain ⟨payload, serialized, shortService, shortMethod, bound, fields⟩ :=
        encodeRequestBody_payload encoded small
      rw [verdict, body, msgType, acceptedBody_request pb _ shortService shortMethod bound fields]
        at accepted
      split at accepted
      · next parsed =>
          cases accepted
          refine ⟨rfl, rfl, ?_, rfl, rfl⟩
          exact kept payload _ serialized (Prod.ext parsed rfl)
      · cases accepted
  | response resp reqId status =>
      obtain ⟨payload, serialized, bound, fields⟩ := encodeResponseBody_payload encoded small
      rw [verdict, body, msgType, acceptedBody_response pb _ status bound fields] at accepted
      split at accepted
      · next parsed =>
          cases accepted
          refine ⟨rfl, rfl, ?_, rfl⟩
          exact kept payload _ serialized (Prod.ext parsed rfl)
      · cases accepted
  | heartbeat hb reqId =>
      have short := encodeHeartbeatBody_ne_nil encoded
      rw [verdict, body, msgType, encodeHeartbeatBody_eq short, acceptedBody_heartbeat pb _ short]
        at accepted
      split at accepted
      · cases accepted
        refine ⟨rfl, rfl, rfl, rfl, rfl, ?_⟩
        intro key
        dsimp only
        rw [lookup_foldl_insert hb.extra.nodupKeys, AList.lookup_empty, Option.or_none]
        rfl
      · cases accepted

/-- The packet shows the message to the body of the loop: its type, its id and the
content of a request or response.  The packet is used again for every call, so
the extras of a heartbeat may be those of an earlier one. -/
def ShownBy (m : Message) (packet : DecodedPacket) : Prop :=
  packet.msgType = m.msgType ∧ packet.reqId = m.reqId ∧
    match m with
    | .request req _ serviceName methodName =>
        packet.rpcRequest = req ∧ packet.serviceName = serviceName ∧
          packet.methodName = methodName
    | .response resp _ status => packet.rpcResponse = resp ∧ packet.networkStatus = status
    | .heartbeat _ _ => True

/-- The body of a message within the limits is accepted into any packet. -/
theorem bodyOutcome_shown {pb : Protobuf} {m : Message} (limits : m.WithinLimits)
    (inverted : m.Inverted pb) (small : (m.body pb).length ≤ kMaxBodyLen)
    (packet : DecodedPacket) :
    (bodyOutcome pb m.msgType m.reqId (m.body pb) packet).1 = true ∧
      m.ShownBy (bodyOutcome pb m.msgType m.reqId (m.body pb) packet).2 := by
  have encoded := body_of_limits limits inverted
  cases m with
  | request req reqId serviceName methodName =>
      obtain ⟨payload, serialized, shortService, shortMethod, bound, fields⟩ :=
        encodeRequestBody_payload encoded small
      obtain ⟨also, serializedAlso, parsed⟩ := inverted
      cases serialized.symm.trans serializedAlso
      have outcome := decodeRequestBody_encoded pb shortService shortMethod bound fields packet
      rw [parsed] at outcome
      simp only [bodyOutcome, decodeBody, msgType, body, if_true, outcome]
      exact ⟨trivial, rfl, rfl, rfl, rfl, rfl⟩
  | response resp reqId status =>
      obtain ⟨payload, serialized, bound, fields⟩ := encodeResponseBody_payload encoded small
      obtain ⟨also, serializedAlso, parsed⟩ := inverted
      cases serialized.symm.trans serializedAlso
      have outcome := decodeResponseBody_encoded pb status bound fields packet
      rw [parsed, if_pos rfl] at outcome
      simp only [bodyOutcome, decodeBody, msgType, body, if_true, if_false, MsgType.toByte_inj,
        reduceCtorEq, outcome]
      exact ⟨trivial, rfl, rfl, rfl, rfl⟩
  | heartbeat hb reqId =>
      have outcome := decodeHeartbeatBody_encoded limits.1 packet
      dsimp only at outcome
      rw [Nat.mod_eq_of_lt (Nat.lt_succ_of_le limits.2), List.take_length, if_neg (by simp)]
        at outcome
      simp only [bodyOutcome, decodeBody, msgType, body, encodeHeartbeatBody_eq limits.1,
        if_true, if_false, MsgType.toByte_inj, reduceCtorEq, outcome]
      exact ⟨trivial, rfl, rfl, trivial⟩

/-- The body of a message within the limits is accepted. -/
theorem accepted_of_limits {pb : Protobuf} {m : Message} (limits : m.WithinLimits)
    (inverted : m.Inverted pb) (small : (m.body pb).length ≤ kMaxBodyLen) :
    (m.verdict pb).isSome := by
  rw [verdict, acceptedBody, if_pos (m.bodyOutcome_shown limits inverted small _).1]
  rfl

end Message

end RpcFramework.Codec
