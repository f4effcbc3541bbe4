import RpcFramework.Codec.ReceiveLoop

/-!
# The frames that the decoder accepts

The packet format as a grammar: which byte strings are frames, and what a frame
says.  The decoder accepts exactly the frames at the front of the buffer, returns
what they say, and uses them up.  Every length field is fixed by what it counts,
so a frame has one reading and a request is encoded to its frame again.
-/

namespace RpcFramework.Codec

/-- The status byte of a response; what is no status is a failure. -/
def readStatus (status : UInt8) : Status :=
  if status = 0 then .success else if status = 2 then .timeout else .failed

/--
The body of a packet of each type and the packet that it says, in the words of
the packet format.  Of a key that is given more than once the last value counts.
-/
inductive Body (pb : Protobuf) (reqId : UInt64) : MsgType → Bytes → DecodedPacket → Prop
  | request {serviceName methodName payload : Bytes} {req : RpcRequest}
      (shortService : serviceName.length ≤ 65535) (shortMethod : methodName.length ≤ 65535)
      (small : payload.length < 2 ^ 32) (parsed : pb.parseRequest payload = (true, req)) :
      Body pb reqId .request
        (stringField serviceName ++ (stringField methodName ++
          (encodeU32 (UInt32.ofNat payload.length) ++ payload)))
        { DecodedPacket.fresh .request reqId with
          serviceName := serviceName
          methodName := methodName
          rpcRequest := req }
  | response {status : UInt8} {payload : Bytes} {resp : RpcResponse}
      (small : payload.length < 2 ^ 32) (parsed : pb.parseResponse payload = (true, resp)) :
      Body pb reqId .response
        (status :: (encodeU32 (UInt32.ofNat payload.length) ++ payload))
        { DecodedPacket.fresh .response reqId with
          rpcResponse := resp
          networkStatus := readStatus status }
  | heartbeat {serviceName nodeId : Bytes} {timestamp : UInt64}
      {entries : List (Σ _ : Bytes, Bytes)} {extra : StringMap}
      (shortService : serviceName.length ≤ 65535) (shortNode : nodeId.length ≤ 65535)
      (count : entries.length ≤ 65535)
      (short : ∀ entry ∈ entries, entry.1.length ≤ 65535 ∧ entry.2.length ≤ 65535)
      (lastWins : ∀ key, extra.lookup key = entries.reverse.dlookup key) :
      Body pb reqId .heartbeat
        (stringField serviceName ++ (stringField nodeId ++ (encodeU64 timestamp ++
          (encodeU16 (UInt16.ofNat entries.length) ++ extrasField entries))))
        { DecodedPacket.fresh .heartbeat reqId with
          heartbeat := ⟨serviceName, nodeId, timestamp.toInt64, extra⟩ }

/-- A header, a body that it declares, and the checksum of both. -/
inductive Frame (pb : Protobuf) : Bytes → DecodedPacket → Prop
  | mk {msgType : MsgType} {reqId : UInt64} {header body checksum : Bytes}
      {packet : DecodedPacket} (head : header = fixedHeader msgType reqId body.length)
      (small : body.length ≤ kMaxBodyLen) (content : Body pb reqId msgType body packet)
      (sum : checksum = encodeU32 (crc32 (header ++ body) (header ++ body).length)) :
      Frame pb (header ++ body ++ checksum) packet

/-- Two packets with the same fields; the iteration order of the extras is not
part of the content. -/
def DecodedPacket.SameContent (first second : DecodedPacket) : Prop :=
  first.msgType = second.msgType ∧ first.reqId = second.reqId ∧
    first.rpcRequest = second.rpcRequest ∧ first.rpcResponse = second.rpcResponse ∧
    first.heartbeat.SameContent second.heartbeat ∧ first.serviceName = second.serviceName ∧
    first.methodName = second.methodName ∧ first.networkStatus = second.networkStatus

theorem statusOfByte_eq_readStatus (status : UInt8) : statusOfByte status = readStatus status := by
  unfold statusOfByte readStatus Status.toByte
  by_cases zero : status = 0
  · subst zero
    rfl
  by_cases one : status = 1
  · subst one
    rfl
  by_cases two : status = 2
  · subst two
    rfl
  have above : ¬ status ≤ 2 := by
    intro within
    have small : status.toNat ≤ 2 := within
    have notZero : status.toNat ≠ 0 := fun same => zero (UInt8.toNat_inj.mp same)
    have notOne : status.toNat ≠ 1 := fun same => one (UInt8.toNat_inj.mp same)
    have notTwo : status.toNat ≠ 2 := fun same => two (UInt8.toNat_inj.mp same)
    omega
  rw [if_neg above, if_neg zero, if_neg two]

/-! ## What the readers have read -/

theorem drop_eq_load_append (data : Bytes) (pos len : Nat) :
    data.drop pos = load data pos len ++ data.drop (pos + len) := by
  rw [load, ← List.drop_drop, List.take_append_drop]

theorem drop_eq_byteAt_cons {data : Bytes} {pos : Nat} (within : pos < data.length) :
    data.drop pos = byteAt data pos :: data.drop (pos + 1) := by
  rw [List.drop_eq_getElem_cons within, byteAt, List.getD_eq_getElem?_getD,
    List.getElem?_eq_getElem within, Option.getD_some]

theorem readString_eq_some {data str : Bytes} {pos next totalLen : Nat}
    (within : totalLen ≤ data.length) (read : readString data pos totalLen = some (str, next)) :
    str.length ≤ 65535 ∧ next = pos + (2 + str.length) ∧ next ≤ totalLen ∧
      data.drop pos = stringField str ++ data.drop next := by
  unfold readString at read
  split at read
  · cases read
  · next room =>
      dsimp only at read
      split at read
      · cases read
      · next space =>
          cases read
          generalize size : (decodeU16 (load data pos 2)).toNat = len at space
          have length : (load data (pos + 2) len).length = len := length_load (by omega)
          have bound : len < 65536 := size ▸ (decodeU16 (load data pos 2)).toNat_lt
          have field : load data pos 2 = encodeU16 (UInt16.ofNat len) := by
            rw [← size, UInt16.ofNat_toNat, encodeU16_decodeU16 (length_load (by omega))]
          refine ⟨by omega, by omega, by omega, ?_⟩
          rw [drop_eq_load_append data pos 2, drop_eq_load_append data (pos + 2) len, field,
            stringField, length, List.append_assoc]

theorem readPayload_eq_some {data payload : Bytes} {pos bodyLen : Nat}
    (within : bodyLen ≤ data.length) (read : readPayload data pos bodyLen = some payload) :
    payload.length < 2 ^ 32 ∧ pos + (4 + payload.length) = bodyLen ∧
      data.drop pos =
        encodeU32 (UInt32.ofNat payload.length) ++ payload ++ data.drop bodyLen := by
  unfold readPayload at read
  split at read
  · cases read
  · next room =>
      dsimp only at read
      split at read
      · cases read
      · split at read
        · cases read
        · next ends =>
            cases read
            generalize size : (decodeU32 (load data pos 4)).toNat = len at ends
            have ends : pos + 4 + len = bodyLen := not_not.mp ends
            have length : (load data (pos + 4) len).length = len := length_load (by omega)
            have bound : len < 2 ^ 32 := size ▸ (decodeU32 (load data pos 4)).toNat_lt
            have field : load data pos 4 = encodeU32 (UInt32.ofNat len) := by
              rw [← size, UInt32.ofNat_toNat, encodeU32_decodeU32 (length_load (by omega))]
            refine ⟨by omega, by omega, ?_⟩
            rw [drop_eq_load_append data pos 4, drop_eq_load_append data (pos + 4) len, field,
              length, ends, List.append_assoc]

/-- The extras that are read before the loop ends or fails. -/
theorem readExtras_reads {data : Bytes} {bodyLen : Nat} (within : bodyLen ≤ data.length)
    (count pos : Nat) :
    ∃ (entries : List (Σ _ : Bytes, Bytes)) (ended : Option Nat) (stop : Nat),
      entries.length ≤ count ∧
      (∀ entry ∈ entries, entry.1.length ≤ 65535 ∧ entry.2.length ≤ 65535) ∧
      (∀ extra, readExtras data bodyLen count pos extra =
        (ended, entries.foldl (fun map entry => map.insert entry.1 entry.2) extra)) ∧
      data.drop pos = extrasField entries ++ data.drop stop ∧
      ∀ next, ended = some next → entries.length = count ∧ next = stop := by
  induction count generalizing pos with
  | zero =>
      refine ⟨[], some pos, pos, Nat.le_refl _, List.forall_mem_nil _, fun _ => rfl, rfl, ?_⟩
      rintro next ⟨⟩
      exact ⟨rfl, rfl⟩
  | succ count ih =>
      unfold readExtras
      cases first : readString data pos bodyLen with
      | none => exact ⟨[], none, pos, Nat.zero_le _, by simp, fun _ => rfl, rfl, by simp⟩
      | some key =>
          dsimp only
          cases second : readString data key.2 bodyLen with
          | none => exact ⟨[], none, pos, Nat.zero_le _, by simp, fun _ => rfl, rfl, by simp⟩
          | some value =>
              obtain ⟨entries, ended, stop, counted, short, inserted, rest, all⟩ := ih value.2
              obtain ⟨shortKey, _, _, atKey⟩ := readString_eq_some within first
              obtain ⟨shortValue, _, _, atValue⟩ := readString_eq_some within second
              refine ⟨⟨key.1, value.1⟩ :: entries, ended, stop, Nat.succ_le_succ counted, ?_,
                fun extra => inserted _, ?_, ?_⟩
              · intro entry member
                rcases List.mem_cons.mp member with rfl | later
                · exact ⟨shortKey, shortValue⟩
                · exact short entry later
              · rw [atKey, atValue, rest, extrasField, extrasField, List.flatMap_cons]
                simp only [List.append_assoc]
              · intro next last
                obtain ⟨counted, same⟩ := all next last
                exact ⟨congrArg Nat.succ counted, same⟩

/-- Of the values that are inserted for a key the last one stays. -/
theorem lookup_foldl_insert_last (entries : List (Σ _ : Bytes, Bytes)) (map : StringMap)
    (key : Bytes) :
    (entries.foldl (fun map entry => map.insert entry.1 entry.2) map).lookup key =
      (entries.reverse.dlookup key).or (map.lookup key) := by
  induction entries generalizing map with
  | nil => rfl
  | cons entry entries ih =>
      rw [List.foldl_cons, ih, List.reverse_cons, List.dlookup_append]
      by_cases same : key = entry.1
      · subst same
        have last : List.dlookup entry.1 [entry] = some entry.2 := List.dlookup_cons_eq _ _ _
        rw [AList.lookup_insert, last, Option.or_assoc, Option.some_or]
      · have other : List.dlookup key [entry] = none := List.dlookup_cons_ne [] entry same
        rw [AList.lookup_insert_ne same, other, Option.or_none]

/-! ## Bodies -/

section Bodies

variable {pb : Protobuf} {reqId : UInt64} {body : Bytes} {packet after : DecodedPacket}

theorem decodeRequestBody_true
    (accepted : decodeRequestBody pb body body.length packet = (true, after)) :
    ∃ serviceName methodName payload req, serviceName.length ≤ 65535 ∧
      methodName.length ≤ 65535 ∧ payload.length < 2 ^ 32 ∧
      pb.parseRequest payload = (true, req) ∧
      body = stringField serviceName ++ (stringField methodName ++
        (encodeU32 (UInt32.ofNat payload.length) ++ payload)) ∧
      after = { packet with
        serviceName := serviceName
        methodName := methodName
        rpcRequest := req } := by
  obtain ⟨_, _, _, _, filled, all⟩ := decodeRequestBody_fills pb body body.length
  rw [filled] at accepted
  obtain ⟨rfl, rfl⟩ := Prod.mk.inj accepted
  obtain ⟨service, method, payload, req, first, second, last, parsed, rfl, rfl, rfl⟩ := all rfl
  obtain ⟨shortService, _, _, atService⟩ := readString_eq_some (Nat.le_refl _) first
  obtain ⟨shortMethod, _, _, atMethod⟩ := readString_eq_some (Nat.le_refl _) second
  obtain ⟨small, _, atPayload⟩ := readPayload_eq_some (Nat.le_refl _) last
  refine ⟨service.1, method.1, payload, req, shortService, shortMethod, small, parsed, ?_, rfl⟩
  rw [List.drop_length, List.append_nil] at atPayload
  rw [← atPayload, ← atMethod, ← atService, List.drop_zero]

theorem decodeResponseBody_true
    (accepted : decodeResponseBody pb body body.length packet = (true, after)) :
    ∃ status payload resp, payload.length < 2 ^ 32 ∧
      pb.parseResponse payload = (true, resp) ∧
      body = status :: (encodeU32 (UInt32.ofNat payload.length) ++ payload) ∧
      after = { packet with
        rpcResponse := resp
        networkStatus := statusOfByte status } := by
  obtain ⟨_, _, _, filled, all⟩ := decodeResponseBody_fills pb body body.length
  rw [filled] at accepted
  obtain ⟨rfl, rfl⟩ := Prod.mk.inj accepted
  obtain ⟨payload, resp, room, last, parsed, rfl, rfl⟩ := all rfl
  obtain ⟨small, _, atPayload⟩ := readPayload_eq_some (Nat.le_refl _) last
  refine ⟨byteAt body 0, payload, resp, small, parsed, ?_, rfl⟩
  rw [List.drop_length, List.append_nil] at atPayload
  rw [← atPayload, ← drop_eq_byteAt_cons room, List.drop_zero]

/-- What is read of a heartbeat body, whatever the packet holds. -/
theorem decodeHeartbeatBody_reads (body : Bytes) :
    (∀ packet, decodeHeartbeatBody body body.length packet = (false, packet)) ∨
      ∃ serviceName nodeId timestamp rest, ∃ (count : UInt16) (entries : List (Σ _ : Bytes, Bytes)),
        serviceName.length ≤ 65535 ∧ nodeId.length ≤ 65535 ∧ entries.length ≤ count.toNat ∧
        (∀ entry ∈ entries, entry.1.length ≤ 65535 ∧ entry.2.length ≤ 65535) ∧
        body = stringField serviceName ++ (stringField nodeId ++ (encodeU64 timestamp ++
          (encodeU16 count ++ (extrasField entries ++ rest)))) ∧
        let filled := fun packet : DecodedPacket =>
          entries.foldl (fun map entry => map.insert entry.1 entry.2) packet.heartbeat.extra
        ((∀ packet, decodeHeartbeatBody body body.length packet =
            (false, { packet with heartbeat := { packet.heartbeat with extra := filled packet } })) ∨
          rest = [] ∧ entries.length = count.toNat ∧
          ∀ packet, decodeHeartbeatBody body body.length packet =
            (true, { packet with
              heartbeat := ⟨serviceName, nodeId, timestamp.toInt64, filled packet⟩ })) := by
  have within := Nat.le_refl body.length
  rcases decodeHeartbeatBody_fills body body.length with unread |
    ⟨service, node, first, second, counted, decoded⟩
  · exact Or.inl unread
  obtain ⟨entries, ended, stop, few, short, inserted, atExtras, all⟩ :=
    readExtras_reads within (decodeU16 (load body (node.2 + 8) 2)).toNat (node.2 + 8 + 2)
  obtain ⟨shortService, _, _, atService⟩ := readString_eq_some within first
  obtain ⟨shortNode, _, _, atNode⟩ := readString_eq_some within second
  refine Or.inr ⟨service.1, node.1, decodeU64 (load body node.2 8), body.drop stop,
    decodeU16 (load body (node.2 + 8) 2), entries, shortService, shortNode, few, short, ?_, ?_⟩
  · rw [← atExtras, encodeU16_decodeU16 (length_load counted), ← drop_eq_load_append,
      encodeU64_decodeU64 (length_load (by omega)), ← drop_eq_load_append, ← atNode, ← atService,
      List.drop_zero]
  · simp only [inserted] at decoded
    by_cases ends : ended = some body.length
    · obtain ⟨counted, rfl⟩ := all _ ends
      refine Or.inr ⟨List.drop_length, counted, fun packet => ?_⟩
      rw [decoded, if_neg (not_not_intro ends)]
    · refine Or.inl fun packet => ?_
      rw [decoded, if_pos ends]

theorem decodeHeartbeatBody_true
    (accepted : decodeHeartbeatBody body body.length packet = (true, after)) :
    ∃ serviceName nodeId timestamp, ∃ entries : List (Σ _ : Bytes, Bytes),
      serviceName.length ≤ 65535 ∧ nodeId.length ≤ 65535 ∧ entries.length ≤ 65535 ∧
      (∀ entry ∈ entries, entry.1.length ≤ 65535 ∧ entry.2.length ≤ 65535) ∧
      body = stringField serviceName ++ (stringField nodeId ++ (encodeU64 timestamp ++
        (encodeU16 (UInt16.ofNat entries.length) ++ extrasField entries))) ∧
      after = { packet with heartbeat := ⟨serviceName, nodeId, timestamp.toInt64,
        entries.foldl (fun map entry => map.insert entry.1 entry.2) packet.heartbeat.extra⟩ } := by
  rcases decodeHeartbeatBody_reads body with unread | ⟨serviceName, nodeId, timestamp, rest, count,
    entries, shortService, shortNode, few, short, whole, refused | ⟨rfl, all, filled⟩⟩
  · cases accepted.symm.trans (unread packet)
  · cases accepted.symm.trans (refused packet)
  · refine ⟨serviceName, nodeId, timestamp, entries, shortService, shortNode,
      few.trans (Nat.le_of_lt_succ count.toNat_lt), short, ?_,
      congrArg Prod.snd (accepted.symm.trans (filled packet))⟩
    rwa [all, UInt16.ofNat_toNat, ← List.append_nil (extrasField entries)]

/-- A body that is accepted is one of the grammar. -/
theorem body_of_decodeBody {kind : UInt8} {anyType : MsgType} {anyId : UInt64}
    (accepted : decodeBody pb kind body body.length (.fresh anyType anyId) = some (true, after)) :
    ∃ msgType : MsgType, kind = msgType.toByte ∧
      Body pb reqId msgType body { after with reqId := reqId } := by
  unfold decodeBody at accepted
  split at accepted
  · next request =>
      rcases result : decodeRequestBody pb body body.length (.fresh anyType anyId) with
        ⟨settled, filled⟩
      rw [result] at accepted
      cases accepted
      obtain ⟨serviceName, methodName, payload, req, shortService, shortMethod, small, parsed,
        rfl, rfl⟩ := decodeRequestBody_true result
      exact ⟨.request, request, .request shortService shortMethod small parsed⟩
  · split at accepted
    · next response =>
        rcases result : decodeResponseBody pb body body.length (.fresh anyType anyId) with
          ⟨settled, filled⟩
        rw [result] at accepted
        cases accepted
        obtain ⟨status, payload, resp, small, parsed, rfl, rfl⟩ := decodeResponseBody_true result
        refine ⟨.response, response, ?_⟩
        rw [statusOfByte_eq_readStatus]
        exact .response small parsed
    · split at accepted
      · next heartbeat =>
          rcases result : decodeHeartbeatBody body body.length (.fresh anyType anyId) with
            ⟨settled, filled⟩
          rw [result] at accepted
          cases accepted
          obtain ⟨serviceName, nodeId, timestamp, entries, shortService, shortNode, count, short,
            rfl, rfl⟩ := decodeHeartbeatBody_true result
          refine ⟨.heartbeat, heartbeat, .heartbeat shortService shortNode count short ?_⟩
          intro key
          rw [lookup_foldl_insert_last]
          exact Option.or_none
      · cases accepted

/-- A body of the grammar is accepted and read as the grammar says. -/
theorem Body.outcome {msgType : MsgType} (content : Body pb reqId msgType body packet)
    (anyType : MsgType) (anyId : UInt64) :
    (bodyOutcome pb msgType reqId body (.fresh anyType anyId)).1 = true ∧
      (bodyOutcome pb msgType reqId body (.fresh anyType anyId)).2.SameContent packet := by
  have same : ∀ hb : Heartbeat, hb.SameContent hb := fun _ => ⟨rfl, rfl, rfl, fun _ => rfl⟩
  cases content with
  | request shortService shortMethod small parsed =>
      have outcome := decodeRequestBody_encoded pb shortService shortMethod small rfl
        (.fresh anyType anyId)
      rw [parsed] at outcome
      simp only [bodyOutcome, decodeBody, if_true, outcome]
      exact ⟨trivial, rfl, rfl, rfl, rfl, same _, rfl, rfl, rfl⟩
  | @response status payload resp small parsed =>
      have outcome := decodeResponseBody_fields pb status small rfl (.fresh anyType anyId)
      rw [parsed, if_pos rfl] at outcome
      simp only [bodyOutcome, decodeBody, if_true, if_false, MsgType.toByte_inj, reduceCtorEq,
        outcome]
      exact ⟨trivial, rfl, rfl, rfl, rfl, same _, rfl, rfl, statusOfByte_eq_readStatus status⟩
  | @heartbeat serviceName nodeId timestamp entries extra shortService shortNode count short
      lastWins =>
      have outcome := @decodeHeartbeatBody_fields _ _ timestamp _ shortService shortNode short _ rfl
        (.fresh anyType anyId)
      dsimp only at outcome
      rw [Nat.mod_eq_of_lt (Nat.lt_succ_of_le count), List.take_length, if_neg (by simp)]
        at outcome
      simp only [bodyOutcome, decodeBody, if_true, if_false, MsgType.toByte_inj, reduceCtorEq,
        outcome]
      refine ⟨trivial, rfl, rfl, rfl, rfl, ⟨rfl, rfl, rfl, ?_⟩, rfl, rfl, rfl⟩
      intro key
      rw [lastWins, lookup_foldl_insert_last]
      exact Option.or_none

/-- Encoding the names and the payload of a request body gives the body again. -/
theorem Body.encode_request (content : Body pb reqId .request body packet) :
    ∃ payload, pb.parseRequest payload = (true, packet.rpcRequest) ∧
      encodeRequestBody { pb with serializeRequest := fun _ => some payload } packet.rpcRequest
        packet.serviceName packet.methodName = body := by
  cases content with
  | @request serviceName methodName payload req shortService shortMethod small parsed =>
      refine ⟨payload, parsed, ?_⟩
      simp only [encodeRequestBody, appendString_eq shortService, appendString_eq shortMethod,
        List.nil_append, List.append_assoc]

end Bodies

/-! ## Frames -/

theorem Frame.eq_pack {pb : Protobuf} {bytes : Bytes} {packet : DecodedPacket}
    (frame : Frame pb bytes packet) :
    ∃ msgType reqId body, bytes = pack msgType reqId body ∧ body.length ≤ kMaxBodyLen ∧
      Body pb reqId msgType body packet := by
  cases frame with
  | @mk msgType reqId header body checksum packet head small content sum =>
      subst head sum
      exact ⟨msgType, reqId, body, rfl, small, content⟩

/-- The header of a complete frame of a known type. -/
theorem CompleteFrame.header_eq {bytes : Bytes} (frame : CompleteFrame bytes) {msgType : MsgType}
    (kind : byteAt bytes 5 = msgType.toByte) :
    bytes = fixedHeader msgType (decodeU64 (load bytes 10 8)) (declaredLen bytes) ++
      bytes.drop kFixedHeaderSize := by
  have size : 18 ≤ bytes.length := frame.header
  have magic : load bytes 0 4 = encodeU32 kMagic := by
    have found : decodeU32 (load bytes 0 4) = kMagic := eq_of_beq frame.magic
    rw [← found, encodeU32_decodeU32 (length_load (by omega))]
  have len : load bytes 6 4 = encodeU32 (UInt32.ofNat (declaredLen bytes)) := by
    rw [declaredLen, UInt32.ofNat_toNat, encodeU32_decodeU32 (length_load (by omega))]
  have id : load bytes 10 8 = encodeU64 (decodeU64 (load bytes 10 8)) :=
    (encodeU64_decodeU64 (length_load (by omega))).symm
  calc
    bytes = load bytes 0 4 ++ (byteAt bytes 4 :: byteAt bytes 5 ::
        (load bytes 6 4 ++ (load bytes 10 8 ++ bytes.drop 18))) := by
      rw [← drop_eq_load_append bytes 10 8, ← drop_eq_load_append bytes 6 4,
        ← drop_eq_byteAt_cons (by omega), ← drop_eq_byteAt_cons (by omega),
        ← drop_eq_load_append bytes 0 4, List.drop_zero]
    _ = fixedHeader msgType (decodeU64 (load bytes 10 8)) (declaredLen bytes) ++
        bytes.drop kFixedHeaderSize := by
      rw [fixedHeader, ← id, magic, len, frame.version, kind]
      simp only [List.append_assoc, List.cons_append, List.nil_append, kFixedHeaderSize]

/-- A complete frame of a known type with the right checksum is a packet. -/
theorem CompleteFrame.eq_pack {bytes : Bytes} (frame : CompleteFrame bytes) {msgType : MsgType}
    (kind : byteAt bytes 5 = msgType.toByte)
    (sum : crc32 bytes (kFixedHeaderSize + declaredLen bytes) =
      decodeU32 (load bytes (kFixedHeaderSize + declaredLen bytes) 4)) :
    bytes = pack msgType (decodeU64 (load bytes 10 8))
      (load bytes kFixedHeaderSize (declaredLen bytes)) ++ bytes.drop (totalLen bytes) := by
  have total : kFixedHeaderSize + declaredLen bytes + 4 ≤ bytes.length := frame.complete
  have header := frame.header_eq kind
  have body := drop_eq_load_append bytes kFixedHeaderSize (declaredLen bytes)
  have checksum := drop_eq_load_append bytes (kFixedHeaderSize + declaredLen bytes) 4
  have size : (load bytes kFixedHeaderSize (declaredLen bytes)).length = declaredLen bytes :=
    length_load (Nat.le_trans (Nat.le_add_right _ 4) total)
  rw [← encodeU32_decodeU32 (length_load total), ← sum] at checksum
  rw [body, checksum, ← List.append_assoc] at header
  generalize covered : fixedHeader msgType (decodeU64 (load bytes 10 8)) (declaredLen bytes) ++
    load bytes kFixedHeaderSize (declaredLen bytes) = front at header
  have length : front.length = kFixedHeaderSize + declaredLen bytes := by
    rw [← covered, List.length_append, length_fixedHeader, size]
  have same : crc32 bytes (kFixedHeaderSize + declaredLen bytes) = crc32 front front.length := by
    rw [length]
    nth_rewrite 1 [header]
    exact crc32_append_of_le (Nat.le_of_eq length.symm) _
  rw [pack, size, covered, ← same, List.append_assoc]
  exact header

/-- A call finds a packet of a known type in front, or does not touch what it fills. -/
theorem decodeBytes_cases (pb : Protobuf) (bytes : Bytes) :
    (bytes.length ≤ kMaxBufferSize ∧ ∃ msgType reqId body rest,
      bytes = pack msgType reqId body ++ rest ∧ body.length ≤ kMaxBodyLen) ∨
    ∀ packet, ∃ rest, decodeBytes pb bytes packet = (false, rest, packet) := by
  by_cases frame : CompleteFrame bytes
  · by_cases sum : crc32 bytes (kFixedHeaderSize + declaredLen bytes) =
        decodeU32 (load bytes (kFixedHeaderSize + declaredLen bytes) 4)
    · by_cases known : ∃ msgType : MsgType, byteAt bytes 5 = msgType.toByte
      · obtain ⟨msgType, kind⟩ := known
        refine Or.inl ⟨frame.fits, msgType, _, _, _, frame.eq_pack kind sum, ?_⟩
        exact (List.length_take_le ..).trans frame.bodyLen
      · refine Or.inr fun packet => ⟨bytes.drop (totalLen bytes), ?_⟩
        rw [decodeBytes_complete pb packet frame, frameOutcome, if_neg (not_not_intro sum),
          decodeBody, if_neg fun same => known ⟨_, same⟩, if_neg fun same => known ⟨_, same⟩,
          if_neg fun same => known ⟨_, same⟩]
    · refine Or.inr fun packet => ⟨bytes.drop (totalLen bytes), ?_⟩
      rw [decodeBytes_complete pb packet frame, frameOutcome, if_pos sum]
  · refine Or.inr fun packet => ?_
    obtain ⟨rest, called, _⟩ := decodeBytes_incomplete pb packet frame
    exact ⟨rest, called⟩

/-- What a successful call has used up is a frame. -/
theorem frame_of_decodeBytes {pb : Protobuf} {bytes rest : Bytes} {anyType : MsgType}
    {anyId : UInt64} {packet : DecodedPacket}
    (accepted : decodeBytes pb bytes (.fresh anyType anyId) = (true, rest, packet)) :
    bytes.length ≤ kMaxBufferSize ∧ ∃ used, bytes = used ++ rest ∧ Frame pb used packet := by
  rcases decodeBytes_cases pb bytes with ⟨fits, msgType, reqId, body, left, rfl, small⟩ | untouched
  · rw [decodeBytes_pack pb msgType reqId small fits] at accepted
    obtain ⟨settled, outcome⟩ := Prod.mk.inj accepted
    obtain ⟨rfl, filled⟩ := Prod.mk.inj outcome
    unfold bodyOutcome at settled filled
    rcases result : decodeBody pb msgType.toByte body body.length (.fresh anyType anyId) with
      _ | ⟨_ | _, after⟩
    · rw [result] at settled
      cases settled
    · rw [result] at settled
      cases settled
    · rw [result] at filled
      obtain ⟨other, kind, content⟩ := @body_of_decodeBody pb reqId _ _ _ _ _ result
      cases filled
      obtain rfl : msgType = other := by
        revert kind
        cases msgType <;> cases other <;> decide
      exact ⟨fits, _, rfl, .mk rfl small content rfl⟩
  · obtain ⟨_, refused⟩ := untouched (.fresh anyType anyId)
    cases accepted.symm.trans refused

/-- A frame at the front of the bytes is accepted, read and used up. -/
theorem Frame.decodeBytes {pb : Protobuf} {used rest : Bytes} {packet : DecodedPacket}
    (frame : Frame pb used packet) (fits : (used ++ rest).length ≤ kMaxBufferSize)
    (anyType : MsgType) (anyId : UInt64) :
    ∃ filled, Codec.decodeBytes pb (used ++ rest) (.fresh anyType anyId) = (true, rest, filled) ∧
      filled.SameContent packet := by
  obtain ⟨msgType, reqId, body, rfl, small, content⟩ := frame.eq_pack
  obtain ⟨accepted, filled⟩ := content.outcome anyType anyId
  have called := decodeBytes_pack pb msgType reqId small fits (.fresh anyType anyId)
  rw [accepted] at called
  exact ⟨_, called, filled⟩

/-- A frame of a request is what its names, payload and id are encoded to. -/
theorem Frame.encode_request {pb : Protobuf} {used : Bytes} {packet : DecodedPacket}
    (frame : Frame pb used packet) (request : packet.msgType = .request) :
    ∃ payload, pb.parseRequest payload = (true, packet.rpcRequest) ∧
      encodeRequest { pb with serializeRequest := fun _ => some payload } packet.rpcRequest
        packet.reqId packet.serviceName packet.methodName = used := by
  obtain ⟨msgType, reqId, body, rfl, small, content⟩ := frame.eq_pack
  have kind : msgType = .request := by
    rw [← request]
    cases content with
    | request => rfl
    | response => rfl
    | heartbeat => rfl
  subst kind
  have id : packet.reqId = reqId := by
    cases content with
    | request => rfl
  have nonempty : body ≠ [] := by
    cases content with
    | request => simp [stringField, encodeU16, BigEndian.bigEndian]
  obtain ⟨payload, parsed, encoded⟩ := content.encode_request
  refine ⟨payload, parsed, ?_⟩
  rw [encodeRequest, encoded, if_neg (by simpa using nonempty), id]

/--
The decoder accepts exactly the frames: a call succeeds if and only if the
buffered bytes start with a frame; it then returns what the frame says, uses up
exactly the frame, and the frame of a request is what its content is encoded to.
-/
theorem decode_accepts_frames (pb : Protobuf) {buf : Buffer}
    (fits : buf.readableBytes ≤ kMaxBufferSize) (anyType : MsgType) (anyId : UInt64) :
    ((decode pb buf (.fresh anyType anyId)).1 = true ↔
      ∃ used rest packet, buf.readable = used ++ rest ∧ Frame pb used packet) ∧
    ∀ used rest packet, buf.readable = used ++ rest → Frame pb used packet →
      (decode pb buf (.fresh anyType anyId)).2.1.readable = rest ∧
      (decode pb buf (.fresh anyType anyId)).2.2.SameContent packet ∧
      (packet.msgType = .request →
        ∃ payload, pb.parseRequest payload = (true, packet.rpcRequest) ∧
          encodeRequest { pb with serializeRequest := fun _ => some payload } packet.rpcRequest
            packet.reqId packet.serviceName packet.methodName = used) := by
  have view := decode_view pb buf (.fresh anyType anyId)
  rw [← buf.length_readable] at fits
  have accepts : ∀ used rest packet, buf.readable = used ++ rest → Frame pb used packet →
      (decode pb buf (.fresh anyType anyId)).1 = true ∧
        (decode pb buf (.fresh anyType anyId)).2.1.readable = rest ∧
        (decode pb buf (.fresh anyType anyId)).2.2.SameContent packet := by
    intro used rest packet buffered frame
    rw [buffered] at fits view
    obtain ⟨filled, called, same⟩ := frame.decodeBytes fits anyType anyId
    obtain ⟨settled, outcome⟩ := Prod.mk.inj (view.symm.trans called)
    obtain ⟨left, final⟩ := Prod.mk.inj outcome
    exact ⟨settled, left, final ▸ same⟩
  refine ⟨⟨?_, ?_⟩, ?_⟩
  · intro accepted
    rw [accepted] at view
    obtain ⟨_, used, whole, frame⟩ := frame_of_decodeBytes view
    exact ⟨used, _, _, whole, frame⟩
  · rintro ⟨used, rest, packet, buffered, frame⟩
    exact (accepts used rest packet buffered frame).1
  · intro used rest packet buffered frame
    obtain ⟨_, left, same⟩ := accepts used rest packet buffered frame
    exact ⟨left, same, frame.encode_request⟩

theorem decode_accepts_frames_bufferedRequest :
    ∃ used rest packet,
      (Buffer.empty.append (bufferedRequest ++ [0xFF])).readable = used ++ rest ∧
        Frame Wire.wireProtobuf used packet := by
  have fits : (Buffer.empty.append (bufferedRequest ++ [0xFF])).readableBytes ≤
      kMaxBufferSize := by
    decide +kernel
  apply (decode_accepts_frames Wire.wireProtobuf fits .heartbeat 3).1.mp
  decide +kernel

end RpcFramework.Codec
