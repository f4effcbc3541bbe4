import RpcFramework.Codec.BodyRoundTrip
import RpcFramework.Codec.Frames

/-!
# Packets at the front of the buffered bytes

What one decode call does when the buffered bytes start with a packet built by
`pack`, when they are a proper prefix of one, and when the call succeeds at all.
-/

namespace RpcFramework.Codec

theorem byteAt_of_drop {data post : Bytes} {pos : Nat} {byte : UInt8}
    (here : data.drop pos = byte :: post) : byteAt data pos = byte := by
  have found : data[pos]? = some byte := by
    rw [← Nat.add_zero pos, ← List.getElem?_drop, here]
    rfl
  rw [byteAt, List.getD_eq_getElem?_getD, found]
  rfl

theorem drop_after {data post : Bytes} {pos : Nat} {byte : UInt8}
    (here : data.drop pos = byte :: post) : data.drop (pos + 1) = post := by
  rw [← List.drop_drop, here]
  rfl

/-- The header fields of bytes that start with a header. -/
structure StartsWithHeader (msgType : MsgType) (reqId : UInt64) (bodyLen : Nat)
    (bytes : Bytes) : Prop where
  magic : decodeU32 (load bytes 0 4) = kMagic
  version : byteAt bytes 4 = kVersion
  msgType : byteAt bytes 5 = msgType.toByte
  bodyLen : declaredLen bytes = bodyLen
  reqId : decodeU64 (load bytes 10 8) = reqId

theorem startsWithHeader {msgType : MsgType} {reqId : UInt64} {bodyLen : Nat}
    (small : bodyLen < 2 ^ 32) (rest : Bytes) :
    StartsWithHeader msgType reqId bodyLen (fixedHeader msgType reqId bodyLen ++ rest) := by
  generalize whole : fixedHeader msgType reqId bodyLen ++ rest = bytes
  have fields : bytes.drop 0 = encodeU32 kMagic ++ (kVersion :: msgType.toByte ::
      (encodeU32 (UInt32.ofNat bodyLen) ++ (encodeU64 reqId ++ rest))) := by
    rw [← whole, fixedHeader]
    simp
  have atVersion := drop_behind fields (length_encodeU32 _)
  have atType : bytes.drop 5 = _ := drop_after atVersion
  have atLen : bytes.drop 6 = _ := drop_after atType
  have atId : bytes.drop 10 = _ := drop_behind atLen (length_encodeU32 _)
  refine ⟨?_, byteAt_of_drop atVersion, byteAt_of_drop atType, ?_, ?_⟩
  · rw [load_of_drop fields (length_encodeU32 _), decodeU32_encodeU32]
  · rw [declaredLen, load_of_drop atLen (length_encodeU32 _), decodeU32_encodeU32,
      UInt32.toNat_ofNat', Nat.mod_eq_of_lt small]
  · rw [load_of_drop atId (length_encodeU64 _), decodeU64_encodeU64]

/-- The header fields of a prefix that covers the header. -/
theorem StartsWithHeader.of_append {msgType : MsgType} {reqId : UInt64} {bodyLen : Nat}
    {bytes missing : Bytes} (covered : kFixedHeaderSize ≤ bytes.length)
    (header : StartsWithHeader msgType reqId bodyLen (bytes ++ missing)) :
    StartsWithHeader msgType reqId bodyLen bytes := by
  unfold kFixedHeaderSize at covered
  have len : declaredLen (bytes ++ missing) = declaredLen bytes := by
    rw [declaredLen, declaredLen, load_append (by omega)]
  refine ⟨?_, ?_, ?_, len.symm.trans header.bodyLen, ?_⟩
  · rw [← load_append (by omega) missing]
    exact header.magic
  · rw [← byteAt_append (by omega) missing]
    exact header.version
  · rw [← byteAt_append (by omega) missing]
    exact header.msgType
  · rw [← load_append (by omega) missing]
    exact header.reqId

theorem decodeBody_known (pb : Protobuf) (msgType : MsgType) (data : Bytes) (bodyLen : Nat)
    (packet : DecodedPacket) :
    ∃ outcome, decodeBody pb msgType.toByte data bodyLen packet = some outcome := by
  cases msgType with
  | request => exact ⟨_, rfl⟩
  | response => exact ⟨_, rfl⟩
  | heartbeat => exact ⟨_, rfl⟩

/-- The outcome of decoding a body of a known type, with the request id stored on success. -/
def bodyOutcome (pb : Protobuf) (msgType : MsgType) (reqId : UInt64) (body : Bytes)
    (packet : DecodedPacket) : Bool × DecodedPacket :=
  match decodeBody pb msgType.toByte body body.length packet with
  | none => (false, packet)
  | some (false, packet) => (false, packet)
  | some (true, packet) => (true, { packet with reqId := reqId })

/-- A call on a buffered packet decodes its body and leaves what follows the packet. -/
theorem decodeBytes_pack (pb : Protobuf) (msgType : MsgType) (reqId : UInt64)
    {body : Bytes} (small : body.length ≤ kMaxBodyLen) {rest : Bytes}
    (fits : (pack msgType reqId body ++ rest).length ≤ kMaxBufferSize)
    (packet : DecodedPacket) :
    decodeBytes pb (pack msgType reqId body ++ rest) packet =
      ((bodyOutcome pb msgType reqId body packet).1, rest,
        (bodyOutcome pb msgType reqId body packet).2) := by
  generalize whole : pack msgType reqId body ++ rest = bytes at fits ⊢
  have size : bytes.length = kFixedHeaderSize + body.length + kChecksumSize + rest.length := by
    rw [← whole, List.length_append, length_pack]
  obtain ⟨sum, checked, fields⟩ : ∃ sum, sum = crc32 (fixedHeader msgType reqId body.length ++
      body) (kFixedHeaderSize + body.length) ∧ bytes = fixedHeader msgType reqId body.length ++
        (body ++ (encodeU32 sum ++ rest)) := by
    refine ⟨_, rfl, ?_⟩
    rw [← whole, pack]
    simp
  have header : StartsWithHeader msgType reqId body.length bytes := by
    rw [fields]
    exact startsWithHeader (Nat.lt_of_le_of_lt small (by decide)) _
  have total : totalLen bytes = kFixedHeaderSize + body.length + kChecksumSize := by
    rw [totalLen, header.bodyLen]
  have atBody : bytes.drop kFixedHeaderSize = body ++ (encodeU32 sum ++ rest) := by
    rw [fields, List.drop_left' (length_fixedHeader _ _ _)]
  have atChecksum := drop_behind atBody rfl
  have checksum : crc32 bytes (kFixedHeaderSize + body.length) = sum := by
    rw [fields, ← List.append_assoc, crc32_append_of_le (by simp), checked]
  have left : bytes.drop (totalLen bytes) = rest := by
    rw [total]
    exact drop_behind atChecksum (length_encodeU32 _)
  have frame : CompleteFrame bytes := by
    refine ⟨by omega, fits, ?_, header.version, header.bodyLen ▸ small, by omega⟩
    rw [header.magic]
    rfl
  have outcome : frameOutcome pb bytes packet = bodyOutcome pb msgType reqId body packet := by
    unfold frameOutcome bodyOutcome
    rw [header.bodyLen, load_of_drop atChecksum (length_encodeU32 _), decodeU32_encodeU32,
      checksum, if_neg (by simp), header.msgType, atBody, decodeBody_append pb _ (Nat.le_refl _)]
    cases decodeBody pb msgType.toByte body body.length packet with
    | none => rfl
    | some decoded =>
        obtain ⟨accepted, decoded⟩ := decoded
        cases accepted with
        | false => rfl
        | true => rw [header.reqId]
  rw [decodeBytes_complete pb packet frame, outcome, left]

/-- A call on a proper prefix of a packet waits for the rest. -/
theorem decodeBytes_waits (pb : Protobuf) (msgType : MsgType) (reqId : UInt64)
    {body : Bytes} (small : body.length ≤ kMaxBodyLen) {bytes missing : Bytes}
    (proper : missing ≠ []) (part : bytes ++ missing = pack msgType reqId body)
    (fits : bytes.length ≤ kMaxBufferSize) (packet : DecodedPacket) :
    decodeBytes pb bytes packet = (false, bytes, packet) := by
  by_cases short : bytes.length < kFixedHeaderSize
  · rw [decodeBytes, if_pos short]
  · have size := congrArg List.length part
    rw [List.length_append, length_pack] at size
    have more := List.length_pos_iff.mpr proper
    have header : StartsWithHeader msgType reqId body.length bytes := by
      have whole : StartsWithHeader msgType reqId body.length (bytes ++ missing) := by
        rw [part, pack, List.append_assoc]
        exact startsWithHeader (Nat.lt_of_le_of_lt small (by decide)) _
      exact whole.of_append (Nat.le_of_not_lt short)
    unfold decodeBytes
    rw [if_neg short, if_neg (by omega), header.magic, if_neg (by decide),
      if_neg (by simp [header.version]), totalLen, header.bodyLen, if_neg (by omega),
      if_pos (by omega)]

/-- A header that declares an oversized body makes a call drop everything. -/
theorem decodeBytes_oversized (pb : Protobuf) (msgType : MsgType) (reqId : UInt64)
    {bodyLen : Nat} (big : kMaxBodyLen < bodyLen) (small : bodyLen < 2 ^ 32) (rest : Bytes)
    (packet : DecodedPacket) :
    decodeBytes pb (fixedHeader msgType reqId bodyLen ++ rest) packet = (false, [], packet) := by
  have header : StartsWithHeader msgType reqId bodyLen
      (fixedHeader msgType reqId bodyLen ++ rest) := startsWithHeader small rest
  have size : kFixedHeaderSize ≤ (fixedHeader msgType reqId bodyLen ++ rest).length := by
    rw [List.length_append, length_fixedHeader]
    exact Nat.le_add_right _ _
  unfold decodeBytes
  rw [if_neg (Nat.not_lt.mpr size)]
  split
  · rfl
  · rw [header.magic, if_neg (by decide), if_neg (by simp [header.version]), header.bodyLen,
      if_pos big]

/-- A call on more bytes than a buffer may hold drops everything. -/
theorem decodeBytes_overflow (pb : Protobuf) {bytes : Bytes} (packet : DecodedPacket)
    (full : kMaxBufferSize < bytes.length) : decodeBytes pb bytes packet = (false, [], packet) := by
  rw [decodeBytes, if_neg (Nat.not_lt.mpr (Nat.le_trans (by decide) full.le)), if_pos full]

/-- A successful call uses up a whole packet. -/
theorem decodeBytes_true {pb : Protobuf} {bytes rest : Bytes} {packet after : DecodedPacket}
    (accepted : decodeBytes pb bytes packet = (true, rest, after)) :
    CompleteFrame bytes ∧ rest = bytes.drop (totalLen bytes) := by
  by_cases frame : CompleteFrame bytes
  · rw [decodeBytes_complete pb packet frame] at accepted
    exact ⟨frame, (congrArg (fun outcome => outcome.2.1) accepted).symm⟩
  · obtain ⟨left, called, _⟩ := decodeBytes_incomplete pb packet frame
    rw [called] at accepted
    cases accepted

/-- A call never adds bytes. -/
theorem decodeBytes_le (pb : Protobuf) (bytes : Bytes) (packet : DecodedPacket) :
    (decodeBytes pb bytes packet).2.1.length ≤ bytes.length := by
  by_cases frame : CompleteFrame bytes
  · rw [decodeBytes_complete pb packet frame]
    exact (List.drop_sublist _ _).length_le
  · obtain ⟨rest, called, left⟩ := decodeBytes_incomplete pb packet frame
    rw [called]
    cases left with
    | nothing => exact Nat.zero_le _
    | everything => exact Nat.le_refl _
    | magicAt i => exact (List.drop_sublist _ _).length_le

/-! ## The fields that a new packet leaves uninitialised -/

/-- What a body decoder leaves in the packet does not depend on its old type and id. -/
theorem decodeBody_frame (pb : Protobuf) (kind : UInt8) (data : Bytes) (bodyLen : Nat)
    (packet : DecodedPacket) (msgType : MsgType) (reqId : UInt64) :
    decodeBody pb kind data bodyLen { packet with msgType := msgType, reqId := reqId } =
      (decodeBody pb kind data bodyLen packet).map fun outcome =>
        (outcome.1, { outcome.2 with reqId := reqId }) := by
  unfold decodeBody
  split
  · obtain ⟨_, _, _, _, filled, _⟩ := decodeRequestBody_fills pb data bodyLen
    rw [filled, filled]
    rfl
  split
  · obtain ⟨_, _, _, filled, _⟩ := decodeResponseBody_fills pb data bodyLen
    rw [filled, filled]
    rfl
  split
  · rcases decodeHeartbeatBody_fills data bodyLen with unread | ⟨_, _, _, _, _, filled⟩
    · rw [unread, unread]
      rfl
    · dsimp only at filled
      rw [filled, filled]
      dsimp only
      split <;> rfl
  · rfl

/-- The packet decoded from a body, if it is accepted. -/
def acceptedBody (pb : Protobuf) (msgType : MsgType) (reqId : UInt64) (body : Bytes) :
    Option DecodedPacket :=
  let outcome := bodyOutcome pb msgType reqId body (.fresh msgType reqId)
  if outcome.1 then some outcome.2 else none

theorem bodyOutcome_fresh (pb : Protobuf) (msgType : MsgType) (reqId : UInt64) (body : Bytes)
    (anyType : MsgType) (anyId : UInt64) :
    (if (bodyOutcome pb msgType reqId body (.fresh anyType anyId)).1 then
      some (bodyOutcome pb msgType reqId body (.fresh anyType anyId)).2 else none) =
      acceptedBody pb msgType reqId body := by
  have frame := decodeBody_frame pb msgType.toByte body body.length
    (.fresh msgType reqId) anyType anyId
  obtain ⟨⟨accepted, after⟩, known⟩ :=
    decodeBody_known pb msgType body body.length (.fresh msgType reqId)
  rw [known] at frame
  have same : DecodedPacket.fresh anyType anyId =
      { DecodedPacket.fresh msgType reqId with msgType := anyType, reqId := anyId } := rfl
  rw [acceptedBody, bodyOutcome, bodyOutcome, same, frame, known]
  cases accepted with
  | false => rfl
  | true => rfl

end RpcFramework.Codec
