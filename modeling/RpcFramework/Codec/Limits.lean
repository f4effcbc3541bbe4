import RpcFramework.Codec.Grammar

/-!
# Size limits of the encoder and the decoder

The decoder has a limit for the declared body and one for the buffered bytes, and
both are the same number.  A packet is longer than its body by the header and the
checksum, so the largest bodies that pass the first limit do not pass the second.

The count of the extras of a heartbeat has 16 bits, and the encoder writes it for
any number of extras.
-/

namespace RpcFramework.Codec

/-! ## Bodies of any type -/

section Bodies

variable {pb : Protobuf} {msgType : MsgType} {reqId : UInt64} {body : Bytes}
  {content : DecodedPacket}

theorem Body.accepts (wellFormed : Body pb reqId msgType body content)
    (small : body.length ≤ kMaxBodyLen)
    (fits : (pack msgType reqId body).length ≤ kMaxBufferSize) :
    Accepts pb (pack msgType reqId body) := by
  have called := @decodeBytes_pack pb msgType reqId body small [] (by simpa using fits)
    (.fresh .request 0)
  rw [List.append_nil] at called
  rw [Accepts, called]
  exact (wellFormed.outcome .request 0).1

theorem decode_accepts_iff {buf : Buffer} (packet : DecodedPacket) :
    (decode pb buf packet).1 = true ↔ Accepts pb buf.readable := by
  have view : (decodeBytes pb buf.readable packet).1 = (decode pb buf packet).1 :=
    congrArg Prod.fst (decode_view pb buf packet)
  rw [← view, accepts_iff packet]
  by_cases frame : CompleteFrame buf.readable
  · rw [decodeBytes_complete pb packet frame]
    exact (and_iff_right frame).symm
  · obtain ⟨rest, called, _⟩ := decodeBytes_incomplete pb packet frame
    rw [called]
    exact iff_of_false Bool.false_ne_true fun both => frame both.1

theorem not_accepts_of_full {bytes : Bytes} (full : kMaxBufferSize < bytes.length) :
    ¬ Accepts pb bytes := by
  rw [Accepts, decodeBytes_overflow pb _ full]
  exact Bool.false_ne_true

/--
A packet with a well-formed body that passes the limit for bodies is accepted iff
the whole packet fits into a buffer.
-/
theorem decode_accepts_pack_iff (pb : Protobuf)
    (wellFormed : ∃ content, Body pb reqId msgType body content)
    (small : body.length ≤ kMaxBodyLen) {buf : Buffer}
    (buffered : buf.readable = pack msgType reqId body) (packet : DecodedPacket) :
    (decode pb buf packet).1 = true ↔
      kFixedHeaderSize + body.length + kChecksumSize ≤ kMaxBufferSize := by
  obtain ⟨content, wellFormed⟩ := wellFormed
  rw [decode_accepts_iff, buffered, ← length_pack msgType reqId body]
  constructor
  · intro accepted
    exact Nat.le_of_not_lt fun full => not_accepts_of_full full accepted
  · exact wellFormed.accepts small

end Bodies

/-- A response body without a payload, which parses to the default response. -/
def shortBody : Bytes := Status.success.toByte :: (encodeU32 0 ++ [])

theorem shortBody_wellFormed : ∃ content, Body Wire.wireProtobuf 3 .response shortBody content :=
  ⟨_, @Body.response _ _ Status.success.toByte [] .cleared (by decide) rfl⟩

theorem decode_accepts_pack_iff_shortBody :
    (decode Wire.wireProtobuf (Buffer.empty.append (pack .response 3 shortBody))
      (.fresh .request 0)).1 = true :=
  (decode_accepts_pack_iff Wire.wireProtobuf shortBody_wellFormed (by decide)
    (Buffer.readable_empty_append _) _).mpr (by decide)

/-- The payload of a request whose body is as long as the decoder allows. -/
def largestPayload : Bytes := List.replicate (kMaxBodyLen - 13) 0

def largestBody : Bytes := requestLead largestPayload ++ largestPayload

theorem length_requestLead_largestPayload : (requestLead largestPayload).length = 13 := by
  simp only [requestLead, largestPayload, List.length_append, List.length_cons, length_stringField,
    length_encodeU32, List.length_replicate]
  decide +kernel

theorem length_largestBody : largestBody.length = kMaxBodyLen := by
  rw [largestBody, List.length_append, length_requestLead_largestPayload, largestPayload,
    List.length_replicate]
  decide

theorem largestBody_wellFormed :
    Body Wire.wireProtobuf 1 .request largestBody
      { DecodedPacket.fresh .request 1 with rpcRequest := ⟨largestPayload, ∅⟩ } := by
  have size : largestPayload.length = kMaxBodyLen - 13 := List.length_replicate
  have present : largestPayload ≠ [] := by
    rw [← List.length_pos_iff, size]
    decide
  obtain ⟨payload, serialized, parsed⟩ :=
    @Wire.inverts_request ⟨largestPayload, ∅⟩ rfl (by rw [size]; decide)
  cases serialized
  have fields := requestLead_append present
  have whole := length_largestBody
  rw [largestBody, ← fields] at whole ⊢
  refine .request (by decide) (by decide) ?_ parsed
  apply payload_lt (Nat.le_of_eq whole)
  rw [← List.append_assoc, ← List.append_assoc]

/-- The body passes the limit for bodies, and its packet is refused. -/
theorem largestBody_refused :
    largestBody.length ≤ kMaxBodyLen ∧
      (∃ content, Body Wire.wireProtobuf 1 .request largestBody content) ∧
      (decode Wire.wireProtobuf (Buffer.empty.append (pack .request 1 largestBody))
        (.fresh .request 0)).1 = false := by
  refine ⟨Nat.le_of_eq length_largestBody, ⟨_, largestBody_wellFormed⟩, ?_⟩
  rw [← Bool.not_eq_true, decode_accepts_iff, Buffer.readable_empty_append]
  apply not_accepts_of_full
  rw [length_pack, length_largestBody]
  decide

/-! ## Heartbeats -/

section Heartbeats

variable {hb : Heartbeat} {reqId : UInt64}

/-- The heartbeat of an emitted packet. -/
theorem encodeHeartbeat_eq (emitted : encodeHeartbeat hb reqId ≠ []) :
    ShortStrings hb ∧ encodeHeartbeat hb reqId = pack .heartbeat reqId (heartbeatFields hb) := by
  have encoded : encodeHeartbeatBody hb ≠ [] := by
    rintro empty
    apply emitted
    rw [encodeHeartbeat, empty]
    rfl
  have short := encodeHeartbeatBody_ne_nil encoded
  refine ⟨short, ?_⟩
  rw [encodeHeartbeat, if_neg (by simpa using encoded), encodeHeartbeatBody_eq short]

/-- A call on an emitted heartbeat decodes its body. -/
theorem decode_heartbeat {pb : Protobuf} (emitted : encodeHeartbeat hb reqId ≠ [])
    (fits : (encodeHeartbeat hb reqId).length ≤ kMaxBufferSize) {buf : Buffer}
    (buffered : buf.readable = encodeHeartbeat hb reqId) (anyType : MsgType) (anyId : UInt64) :
    (heartbeatFields hb).length ≤ kMaxBodyLen ∧
      (if (decode pb buf (.fresh anyType anyId)).1 then
        some (decode pb buf (.fresh anyType anyId)).2.2 else none) =
        acceptedBody pb .heartbeat reqId (heartbeatFields hb) := by
  have packed := (encodeHeartbeat_eq emitted).2
  rw [packed] at fits buffered
  have small : (heartbeatFields hb).length ≤ kMaxBodyLen := by
    rw [length_pack] at fits
    exact Nat.le_trans (Nat.le_trans (Nat.le_add_left _ _) (Nat.le_add_right _ _)) fits
  have called := @decodeBytes_pack pb .heartbeat reqId (heartbeatFields hb) small []
    (by rw [List.append_nil]; exact fits) (.fresh anyType anyId)
  rw [List.append_nil, ← buffered, decode_view] at called
  obtain ⟨accepted, rest⟩ := Prod.mk.inj called
  refine ⟨small, ?_⟩
  rw [accepted, (Prod.mk.inj rest).2]
  exact bodyOutcome_fresh pb .heartbeat reqId _ anyType anyId

/--
A heartbeat that is emitted within the limits of the decoder is decoded, with its
fields, iff it has at most 65535 extras.
-/
theorem heartbeat_decoded_iff (pb : Protobuf) (emitted : encodeHeartbeat hb reqId ≠ [])
    (fits : (encodeHeartbeat hb reqId).length ≤ kMaxBufferSize) {buf : Buffer}
    (buffered : buf.readable = encodeHeartbeat hb reqId) (anyType : MsgType) (anyId : UInt64) :
    ((decode pb buf (.fresh anyType anyId)).1 = true ∧
      (decode pb buf (.fresh anyType anyId)).2.2.msgType = .heartbeat ∧
      (decode pb buf (.fresh anyType anyId)).2.2.reqId = reqId ∧
      (decode pb buf (.fresh anyType anyId)).2.2.heartbeat.SameContent hb) ↔
        hb.extra.entries.length ≤ 65535 := by
  obtain ⟨small, outcome⟩ := @decode_heartbeat hb reqId pb emitted fits buf buffered anyType anyId
  have short := (encodeHeartbeat_eq emitted).1
  have verdict := acceptedBody_heartbeat pb reqId short
  by_cases few : hb.extra.entries.length < 65536
  · refine iff_of_true ?_ (Nat.le_of_lt_succ few)
    rw [if_pos few] at verdict
    obtain ⟨accepted, filled⟩ := Option.ite_none_right_eq_some.mp (outcome.trans verdict)
    have body : (Message.heartbeat hb reqId).body pb = heartbeatFields hb :=
      encodeHeartbeatBody_eq short
    have encoded : (Message.heartbeat hb reqId).body pb ≠ [] := by
      rintro empty
      apply emitted
      rw [encodeHeartbeat, show encodeHeartbeatBody hb = [] from empty]
      rfl
    have carried : (Message.heartbeat hb reqId).Carried
        (decode pb buf (.fresh anyType anyId)).2.2 := by
      have kept : (Message.heartbeat hb reqId).Kept pb := trivial
      refine Message.carried_of_accepted kept encoded (body ▸ small) ?_
      rw [Message.verdict, body, filled]
      exact verdict
    exact ⟨accepted, carried⟩
  · refine iff_of_false ?_ fun most => few (Nat.lt_succ_of_le most)
    rintro ⟨accepted, _⟩
    rw [if_neg few, ← outcome, if_pos accepted] at verdict
    cases verdict

end Heartbeats

/-- A heartbeat with a negative timestamp. -/
def earlyHeartbeat : Heartbeat := ⟨[0x73], [0x6e], -1, AList.singleton [0x6b] [0x76]⟩

theorem heartbeat_decoded_iff_earlyHeartbeat :
    (decode Wire.wireProtobuf (Buffer.empty.append (encodeHeartbeat earlyHeartbeat 4))
      (.fresh .request 0)).1 = true ∧
    (decode Wire.wireProtobuf (Buffer.empty.append (encodeHeartbeat earlyHeartbeat 4))
      (.fresh .request 0)).2.2.heartbeat.timestamp = -1 := by
  have decoded := (heartbeat_decoded_iff Wire.wireProtobuf (by decide +kernel) (by decide +kernel)
    (Buffer.readable_empty_append (encodeHeartbeat earlyHeartbeat 4)) .request 0).mpr (by decide)
  exact ⟨decoded.1, decoded.2.2.2.2.2.1⟩

/-- The key of an extra, in four letters. -/
def letters (i : Nat) : Bytes :=
  [UInt8.ofNat (97 + i / 4096 % 16), UInt8.ofNat (97 + i / 256 % 16), UInt8.ofNat (97 + i / 16 % 16),
    UInt8.ofNat (97 + i % 16)]

theorem letters_injective {i j : Nat} (first : i < 65536) (second : j < 65536)
    (same : letters i = letters j) : i = j := by
  have digit : ∀ {m n : Nat}, UInt8.ofNat (97 + m % 16) = UInt8.ofNat (97 + n % 16) →
      m % 16 = n % 16 := by
    intro m n equal
    have value := congrArg UInt8.toNat equal
    rw [UInt8.toNat_ofNat', UInt8.toNat_ofNat'] at value
    omega
  obtain ⟨a, rest⟩ := List.cons.inj same
  obtain ⟨b, rest⟩ := List.cons.inj rest
  obtain ⟨c, rest⟩ := List.cons.inj rest
  obtain ⟨d, _⟩ := List.cons.inj rest
  have highest := digit a
  have higher := digit b
  have lower := digit c
  have lowest := digit d
  omega

/-- Extras with different keys and empty values. -/
def letteredExtras (count : Nat) (few : count ≤ 65536) : StringMap where
  entries := (List.range count).map fun i => ⟨letters i, []⟩
  nodupKeys := by
    rw [List.NodupKeys, List.keys, List.map_map]
    refine List.Nodup.map_on ?_ List.nodup_range
    intro i first j second same
    exact letters_injective (Nat.lt_of_lt_of_le (List.mem_range.mp first) few)
      (Nat.lt_of_lt_of_le (List.mem_range.mp second) few) same

section Lettered

variable {count : Nat} (few : count ≤ 65536)

theorem letteredExtras_short :
    ∀ entry ∈ (letteredExtras count few).entries,
      entry.1.length ≤ 65535 ∧ entry.2.length ≤ 65535 := by
  intro entry member
  obtain ⟨i, _, rfl⟩ := List.mem_map.mp member
  exact ⟨by simp [letters], by simp⟩

theorem length_letteredExtras : (letteredExtras count few).entries.length = count := by
  rw [letteredExtras, List.length_map, List.length_range]

theorem length_extrasField_letters (indices : List Nat) :
    (extrasField (indices.map fun i => ⟨letters i, []⟩)).length = 8 * indices.length := by
  induction indices with
  | nil => rfl
  | cons i indices ih =>
      rw [List.map_cons, extrasField, List.flatMap_cons, List.length_append, List.length_append,
        length_stringField, length_stringField, ← extrasField, ih, List.length_cons]
      simp only [letters, List.length_cons, List.length_nil]
      omega

theorem length_extrasField_letteredExtras :
    (extrasField (letteredExtras count few).entries).length = 8 * count := by
  rw [letteredExtras, length_extrasField_letters, List.length_range]

end Lettered

/-- A heartbeat with one extra more than its count can say. -/
def crowdedHeartbeat : Heartbeat := ⟨[], [], 0, letteredExtras 65536 (Nat.le_refl _)⟩

theorem crowdedHeartbeat_short : ShortStrings crowdedHeartbeat :=
  ⟨Nat.zero_le _, Nat.zero_le _, letteredExtras_short (Nat.le_refl _)⟩

theorem length_heartbeatFields_crowded :
    (heartbeatFields crowdedHeartbeat).length = 14 + 8 * 65536 := by
  have extras : (extrasField crowdedHeartbeat.extra.entries).length = 8 * 65536 :=
    length_extrasField_letteredExtras (Nat.le_refl _)
  rw [heartbeatFields]
  simp only [List.length_append, length_stringField, length_encodeU64, length_encodeU16, extras]
  rfl

theorem encodeHeartbeat_crowded :
    encodeHeartbeat crowdedHeartbeat 1 = pack .heartbeat 1 (heartbeatFields crowdedHeartbeat) := by
  have present : (heartbeatFields crowdedHeartbeat).isEmpty = false := by
    rw [List.isEmpty_eq_false_iff, ← List.length_pos_iff, length_heartbeatFields_crowded]
    decide
  rw [encodeHeartbeat, encodeHeartbeatBody_eq crowdedHeartbeat_short, present]
  rfl

/-- The heartbeat is emitted within the limits of the decoder, and refused. -/
theorem crowdedHeartbeat_refused :
    encodeHeartbeat crowdedHeartbeat 1 ≠ [] ∧
      (encodeHeartbeat crowdedHeartbeat 1).length ≤ kMaxBufferSize ∧
      (decode Wire.wireProtobuf (Buffer.empty.append (encodeHeartbeat crowdedHeartbeat 1))
        (.fresh .request 0)).1 = false := by
  have size : (encodeHeartbeat crowdedHeartbeat 1).length = 36 + 8 * 65536 := by
    rw [encodeHeartbeat_crowded, length_pack, length_heartbeatFields_crowded]
    rfl
  have emitted : encodeHeartbeat crowdedHeartbeat 1 ≠ [] := by
    rw [← List.length_pos_iff, size]
    decide
  have fits : (encodeHeartbeat crowdedHeartbeat 1).length ≤ kMaxBufferSize := by
    rw [size]
    decide
  refine ⟨emitted, fits, ?_⟩
  obtain ⟨_, outcome⟩ := @decode_heartbeat _ _ Wire.wireProtobuf emitted fits _
    (Buffer.readable_empty_append _) .request 0
  have many : ¬ crowdedHeartbeat.extra.entries.length < 65536 :=
    Nat.not_lt.mpr (Nat.le_of_eq (length_letteredExtras (Nat.le_refl _)).symm)
  rw [acceptedBody_heartbeat _ _ crowdedHeartbeat_short, if_neg many] at outcome
  rw [← Bool.not_eq_true]
  intro accepted
  rw [if_pos accepted] at outcome
  cases outcome

end RpcFramework.Codec
