import RpcFramework.Codec.ByteView

/-!
# Bodies: what is written and what is read back

Each body is a concatenation of fields.  The readers are specified by the
bytes that are left at their position: a reader standing at an encoded field
returns the field and stands behind it.
-/

namespace RpcFramework.Codec

/-! ## Single fields -/

/-- The wire form of a string. -/
def stringField (str : Bytes) : Bytes := encodeU16 (UInt16.ofNat str.length) ++ str

@[simp]
theorem length_stringField (str : Bytes) : (stringField str).length = 2 + str.length := by
  simp [stringField]

theorem appendString_eq {out str : Bytes} (short : str.length ≤ 65535) :
    appendString out str = some (out ++ stringField str) := by
  rw [appendString, if_neg (Nat.not_lt.mpr short), stringField, List.append_assoc]

theorem appendString_eq_some {out str body : Bytes} (appended : appendString out str = some body) :
    str.length ≤ 65535 ∧ body = out ++ stringField str := by
  by_cases short : str.length ≤ 65535
  · rw [appendString_eq short] at appended
    exact ⟨short, (Option.some.inj appended).symm⟩
  · rw [appendString, if_pos (Nat.lt_of_not_le short)] at appended
    cases appended

/-- A load standing at a field returns it. -/
theorem load_of_drop {data field post : Bytes} {pos len : Nat}
    (here : data.drop pos = field ++ post) (size : field.length = len) :
    load data pos len = field := by
  rw [load, here, ← size, List.take_left' rfl]

/-- What is left behind a field. -/
theorem drop_behind {data field post : Bytes} {pos len : Nat}
    (here : data.drop pos = field ++ post) (size : field.length = len) :
    data.drop (pos + len) = post := by
  rw [← List.drop_drop, here, ← size, List.drop_left' rfl]

theorem toNat_ofNat_length {str : Bytes} (short : str.length ≤ 65535) :
    (UInt16.ofNat str.length).toNat = str.length := by
  rw [UInt16.toNat_ofNat']
  omega

/-- Reading a string at its wire form. -/
theorem readString_of_drop {data str post : Bytes} {pos totalLen : Nat}
    (short : str.length ≤ 65535) (here : data.drop pos = stringField str ++ post)
    (within : pos + (2 + str.length) ≤ totalLen) :
    readString data pos totalLen = some (str, pos + (2 + str.length)) := by
  rw [stringField, List.append_assoc] at here
  have content := drop_behind here (length_encodeU16 _)
  have len : (decodeU16 (load data pos 2)).toNat = str.length := by
    rw [load_of_drop here (length_encodeU16 _), decodeU16_encodeU16, toNat_ofNat_length short]
  rw [readString, if_neg (by omega)]
  simp only [len]
  rw [if_neg (by omega), load_of_drop content rfl, Nat.add_assoc]

/-- Reading the payload that ends a body. -/
theorem readPayload_of_drop {data payload : Bytes} {pos bodyLen : Nat}
    (small : payload.length < 2 ^ 32)
    (here : data.drop pos = encodeU32 (UInt32.ofNat payload.length) ++ payload)
    (ends : pos + (4 + payload.length) = bodyLen) :
    readPayload data pos bodyLen = some payload := by
  have content := drop_behind here (length_encodeU32 _)
  have len : (decodeU32 (load data pos 4)).toNat = payload.length := by
    rw [load_of_drop here (length_encodeU32 _), decodeU32_encodeU32, UInt32.toNat_ofNat']
    exact Nat.mod_eq_of_lt small
  rw [readPayload, if_neg (by omega)]
  simp only [len]
  rw [← List.append_nil payload] at content
  rw [if_neg (by omega), if_neg (by omega), load_of_drop content rfl]

/-! ## Request bodies -/

/-- A request body that is not empty carries all its fields. -/
theorem encodeRequestBody_ne_nil {pb : Protobuf} {req : RpcRequest}
    {serviceName methodName : Bytes}
    (encoded : encodeRequestBody pb req serviceName methodName ≠ []) :
    ∃ payload, pb.serializeRequest req = some payload ∧
      serviceName.length ≤ 65535 ∧ methodName.length ≤ 65535 ∧
      encodeRequestBody pb req serviceName methodName =
        stringField serviceName ++ (stringField methodName ++
          (encodeU32 (UInt32.ofNat payload.length) ++ payload)) := by
  unfold encodeRequestBody at encoded ⊢
  cases first : appendString [] serviceName with
  | none => simp [first] at encoded
  | some body =>
      obtain ⟨shortService, rfl⟩ := appendString_eq_some first
      simp only [first] at encoded ⊢
      cases second : appendString ([] ++ stringField serviceName) methodName with
      | none => exact absurd (by simp only [second]) encoded
      | some both =>
          obtain ⟨shortMethod, rfl⟩ := appendString_eq_some second
          simp only [second] at encoded ⊢
          cases serialized : pb.serializeRequest req with
          | none => simp [serialized] at encoded
          | some payload =>
              exact ⟨payload, rfl, shortService, shortMethod, by simp⟩

/-- Decoding a request body hands its payload to the parser. -/
theorem decodeRequestBody_encoded (pb : Protobuf) {serviceName methodName payload : Bytes}
    (shortService : serviceName.length ≤ 65535) (shortMethod : methodName.length ≤ 65535)
    (small : payload.length < 2 ^ 32) {body : Bytes}
    (fields : body = stringField serviceName ++ (stringField methodName ++
      (encodeU32 (UInt32.ofNat payload.length) ++ payload)))
    (packet : DecodedPacket) :
    decodeRequestBody pb body body.length packet =
      ((pb.parseRequest payload).1,
        { packet with
          serviceName := serviceName
          methodName := methodName
          rpcRequest := (pb.parseRequest payload).2 }) := by
  have size : body.length = 0 + (2 + serviceName.length) + (2 + methodName.length) +
      (4 + payload.length) := by
    rw [fields]
    simp only [List.length_append, length_stringField, length_encodeU32]
    omega
  have start : body.drop 0 = stringField serviceName ++ _ := fields
  have atMethod := drop_behind start (length_stringField _)
  have atPayload := drop_behind atMethod (length_stringField _)
  rw [decodeRequestBody, readString_of_drop shortService start (by omega)]
  dsimp only
  rw [readString_of_drop shortMethod atMethod (by omega)]
  dsimp only
  rw [readPayload_of_drop small atPayload size.symm]

/-! ## Response bodies -/

theorem encodeResponseBody_ne_nil {pb : Protobuf} {resp : RpcResponse} {status : Status}
    (encoded : encodeResponseBody pb resp status ≠ []) :
    ∃ payload, pb.serializeResponse resp = some payload ∧
      encodeResponseBody pb resp status =
        status.toByte :: (encodeU32 (UInt32.ofNat payload.length) ++ payload) := by
  unfold encodeResponseBody at encoded ⊢
  cases serialized : pb.serializeResponse resp with
  | none => simp [serialized] at encoded
  | some payload => exact ⟨payload, rfl, by simp⟩

@[simp]
theorem statusOfByte_toByte (status : Status) : statusOfByte status.toByte = status := by
  cases status <;> decide

/-- Decoding a response body hands its payload to the parser. -/
theorem decodeResponseBody_fields (pb : Protobuf) (status : UInt8) {payload : Bytes}
    (small : payload.length < 2 ^ 32) {body : Bytes}
    (fields : body = status :: (encodeU32 (UInt32.ofNat payload.length) ++ payload))
    (packet : DecodedPacket) :
    decodeResponseBody pb body body.length packet =
      if (pb.parseResponse payload).1 then
        (true, { packet with
          rpcResponse := (pb.parseResponse payload).2
          networkStatus := statusOfByte status })
      else (false, { packet with rpcResponse := (pb.parseResponse payload).2 }) := by
  have size : body.length = 1 + (4 + payload.length) := by
    rw [fields]
    simp only [List.length_cons, List.length_append, length_encodeU32]
    omega
  have atPayload : body.drop 1 = encodeU32 (UInt32.ofNat payload.length) ++ payload := by
    rw [fields]
    rfl
  have first : byteAt body 0 = status := by
    rw [fields]
    rfl
  rw [decodeResponseBody, if_neg (by omega), readPayload_of_drop small atPayload size.symm]
  simp only [first]

theorem decodeResponseBody_encoded (pb : Protobuf) (status : Status) {payload : Bytes}
    (small : payload.length < 2 ^ 32) {body : Bytes}
    (fields : body = status.toByte :: (encodeU32 (UInt32.ofNat payload.length) ++ payload))
    (packet : DecodedPacket) :
    decodeResponseBody pb body body.length packet =
      if (pb.parseResponse payload).1 then
        (true, { packet with
          rpcResponse := (pb.parseResponse payload).2
          networkStatus := status })
      else (false, { packet with rpcResponse := (pb.parseResponse payload).2 }) := by
  rw [decodeResponseBody_fields pb status.toByte small fields, statusOfByte_toByte]

/-! ## Heartbeat bodies -/

/-- The wire form of the extras. -/
def extrasField (entries : List (Σ _ : Bytes, Bytes)) : Bytes :=
  entries.flatMap fun entry => stringField entry.1 ++ stringField entry.2

theorem length_extrasField_take_lt {entries : List (Σ _ : Bytes, Bytes)} {count : Nat}
    (fewer : count < entries.length) :
    (extrasField (entries.take count)).length < (extrasField entries).length := by
  have whole : extrasField entries =
      extrasField (entries.take count) ++ extrasField (entries.drop count) := by
    rw [extrasField, extrasField, extrasField, ← List.flatMap_append, List.take_append_drop]
  rw [whole, List.length_append, List.drop_eq_getElem_cons fewer, extrasField, extrasField,
    List.flatMap_cons, List.length_append, List.length_append, length_stringField]
  omega

theorem appendExtras_eq_some {entries : List (Σ _ : Bytes, Bytes)} {out body : Bytes}
    (appended : appendExtras out entries = some body) :
    (∀ entry ∈ entries, entry.1.length ≤ 65535 ∧ entry.2.length ≤ 65535) ∧
      body = out ++ extrasField entries := by
  induction entries generalizing out with
  | nil =>
      cases appended
      simp [extrasField]
  | cons entry rest ih =>
      unfold appendExtras at appended
      cases first : appendString out entry.1 with
      | none => simp [first] at appended
      | some keyed =>
          simp only [first] at appended
          cases second : appendString keyed entry.2 with
          | none => simp [second] at appended
          | some both =>
              simp only [second] at appended
              obtain ⟨shortKey, rfl⟩ := appendString_eq_some first
              obtain ⟨shortValue, rfl⟩ := appendString_eq_some second
              obtain ⟨shortRest, rfl⟩ := ih appended
              refine ⟨?_, by simp [extrasField]⟩
              intro other member
              rcases List.mem_cons.mp member with rfl | later
              · exact ⟨shortKey, shortValue⟩
              · exact shortRest other later

theorem appendExtras_eq {entries : List (Σ _ : Bytes, Bytes)}
    (short : ∀ entry ∈ entries, entry.1.length ≤ 65535 ∧ entry.2.length ≤ 65535)
    (out : Bytes) : appendExtras out entries = some (out ++ extrasField entries) := by
  induction entries generalizing out with
  | nil => simp [appendExtras, extrasField]
  | cons entry rest ih =>
      obtain ⟨shortKey, shortValue⟩ := short entry (List.mem_cons_self ..)
      simp only [appendExtras, appendString_eq shortKey, appendString_eq shortValue]
      rw [ih (fun other member => short other (List.mem_cons_of_mem _ member))]
      simp [extrasField]

/-- The fields of a heartbeat body. -/
def heartbeatFields (hb : Heartbeat) : Bytes :=
  stringField hb.serviceName ++ (stringField hb.nodeId ++
    (encodeU64 hb.timestamp.toUInt64 ++
      (encodeU16 (UInt16.ofNat hb.extra.entries.length) ++ extrasField hb.extra.entries)))

/-- The strings of a heartbeat fit their length fields. -/
structure ShortStrings (hb : Heartbeat) : Prop where
  serviceName : hb.serviceName.length ≤ 65535
  nodeId : hb.nodeId.length ≤ 65535
  extra : ∀ entry ∈ hb.extra.entries, entry.1.length ≤ 65535 ∧ entry.2.length ≤ 65535

theorem encodeHeartbeatBody_eq {hb : Heartbeat} (short : ShortStrings hb) :
    encodeHeartbeatBody hb = heartbeatFields hb := by
  simp only [encodeHeartbeatBody, appendString_eq short.serviceName,
    appendString_eq short.nodeId, appendExtras_eq short.extra, heartbeatFields,
    List.nil_append, List.append_assoc]

theorem encodeHeartbeatBody_ne_nil {hb : Heartbeat} (encoded : encodeHeartbeatBody hb ≠ []) :
    ShortStrings hb := by
  unfold encodeHeartbeatBody at encoded
  cases first : appendString [] hb.serviceName with
  | none => simp [first] at encoded
  | some body =>
      simp only [first] at encoded
      cases second : appendString body hb.nodeId with
      | none => simp [second] at encoded
      | some both =>
          simp only [second] at encoded
          cases third : appendExtras (both ++ encodeU64 hb.timestamp.toUInt64 ++
              encodeU16 (UInt16.ofNat hb.extra.entries.length)) hb.extra.entries with
          | none => exact absurd (by simp only [third]) encoded
          | some all =>
              exact ⟨(appendString_eq_some first).1, (appendString_eq_some second).1,
                (appendExtras_eq_some third).1⟩

/-- Reading one extra at its wire form. -/
theorem readExtras_cons_of_drop {data post : Bytes} {entry : Σ _ : Bytes, Bytes}
    {rest : List (Σ _ : Bytes, Bytes)} (short : entry.1.length ≤ 65535 ∧ entry.2.length ≤ 65535)
    {pos bodyLen : Nat} (here : data.drop pos = extrasField (entry :: rest) ++ post)
    (within : pos + (extrasField (entry :: rest)).length ≤ bodyLen) (count : Nat)
    (extra : StringMap) :
    ∃ size, (∀ others, (extrasField (entry :: others)).length = size + (extrasField others).length) ∧
      data.drop (pos + size) = extrasField rest ++ post ∧
      readExtras data bodyLen (count + 1) pos extra =
        readExtras data bodyLen count (pos + size) (extra.insert entry.1 entry.2) := by
  have fields : ∀ others : List (Σ _ : Bytes, Bytes), extrasField (entry :: others) =
      stringField entry.1 ++ (stringField entry.2 ++ extrasField others) := by
    intro others
    simp [extrasField]
  rw [fields] at here within
  simp only [List.append_assoc] at here
  simp only [List.length_append, length_stringField] at within
  have atValue := drop_behind here (length_stringField _)
  refine ⟨(2 + entry.1.length) + (2 + entry.2.length), ?_, ?_, ?_⟩
  · intro others
    simp only [fields, List.length_append, length_stringField]
    omega
  · rw [← Nat.add_assoc]
    exact drop_behind atValue (length_stringField _)
  · rw [readExtras, readString_of_drop short.1 here (by omega)]
    dsimp only
    rw [readString_of_drop short.2 atValue (by omega)]
    dsimp only
    rw [Nat.add_assoc pos]

/-- Reading the first extras at their wire form. -/
theorem readExtras_of_drop {data post : Bytes} {entries : List (Σ _ : Bytes, Bytes)}
    (short : ∀ entry ∈ entries, entry.1.length ≤ 65535 ∧ entry.2.length ≤ 65535)
    {pos bodyLen : Nat} (here : data.drop pos = extrasField entries ++ post)
    (within : pos + (extrasField entries).length ≤ bodyLen)
    {count : Nat} (enough : count ≤ entries.length) (extra : StringMap) :
    readExtras data bodyLen count pos extra =
      (some (pos + (extrasField (entries.take count)).length),
        (entries.take count).foldl (fun map entry => map.insert entry.1 entry.2) extra) := by
  induction count generalizing entries pos extra with
  | zero => simp [readExtras, extrasField]
  | succ count ih =>
      cases entries with
      | nil => exact absurd enough (by simp)
      | cons entry rest =>
          obtain ⟨size, length, atRest, read⟩ :=
            readExtras_cons_of_drop (short entry (List.mem_cons_self ..)) here within count extra
          rw [length] at within
          rw [read, ih (fun other member => short other (List.mem_cons_of_mem _ member)) atRest
            (by omega) (by simpa using enough), List.take_succ_cons, List.foldl_cons, length,
            Nat.add_assoc]

/-- Inserting entries with distinct keys one by one builds the map they list. -/
theorem lookup_foldl_insert {entries : List (Σ _ : Bytes, Bytes)} (distinct : entries.NodupKeys)
    (map : StringMap) (key : Bytes) :
    (entries.foldl (fun map entry => map.insert entry.1 entry.2) map).lookup key =
      (entries.dlookup key).or (map.lookup key) := by
  induction entries generalizing map with
  | nil => simp
  | cons entry rest ih =>
      obtain ⟨fresh, later⟩ := List.nodupKeys_cons.mp distinct
      rw [List.foldl_cons, ih later]
      by_cases same : key = entry.1
      · subst same
        have absent : rest.dlookup entry.1 = none := List.dlookup_eq_none.mpr fresh
        rw [absent, AList.lookup_insert, show entry = ⟨entry.1, entry.2⟩ from rfl,
          List.dlookup_cons_eq]
        rfl
      · rw [AList.lookup_insert_ne same, List.dlookup_cons_ne _ _ same]

/-- Decoding a heartbeat body up to its extras. -/
theorem decodeHeartbeatBody_front {serviceName nodeId : Bytes} {timestamp : UInt64}
    {count : UInt16} {post : Bytes} (shortService : serviceName.length ≤ 65535)
    (shortNode : nodeId.length ≤ 65535) {body : Bytes}
    (whole : body = stringField serviceName ++ (stringField nodeId ++ (encodeU64 timestamp ++
      (encodeU16 count ++ post)))) (packet : DecodedPacket) :
    ∃ pos, body.drop pos = post ∧ body.length = pos + post.length ∧
      decodeHeartbeatBody body body.length packet =
        (let extras := readExtras body body.length count.toNat pos packet.heartbeat.extra
         if extras.1 ≠ some body.length then
           (false, { packet with heartbeat := { packet.heartbeat with extra := extras.2 } })
         else
           (true, { packet with
             heartbeat := ⟨serviceName, nodeId, timestamp.toInt64, extras.2⟩ })) := by
  have fields : body.drop 0 = stringField serviceName ++ _ := whole
  have size : body.length = 0 + (2 + serviceName.length) + (2 + nodeId.length) + 8 + 2 +
      post.length := by
    rw [whole]
    simp only [List.length_append, length_stringField, length_encodeU16, length_encodeU64]
    omega
  have atNode := drop_behind fields (length_stringField _)
  have atStamp := drop_behind atNode (length_stringField _)
  have atCount := drop_behind atStamp (length_encodeU64 _)
  refine ⟨_, drop_behind atCount (length_encodeU16 _), size, ?_⟩
  rw [decodeHeartbeatBody, readString_of_drop shortService fields (by omega)]
  dsimp only
  rw [readString_of_drop shortNode atNode (by omega)]
  dsimp only
  rw [if_neg (by omega), if_neg (by omega), load_of_drop atStamp (length_encodeU64 _),
    load_of_drop atCount (length_encodeU16 _), decodeU64_encodeU64, decodeU16_encodeU16]
  rcases readExtras body body.length count.toNat _ packet.heartbeat.extra with ⟨_ | next, extra⟩
  · rfl
  · simp only [ne_eq, Option.some.injEq]

/-- Decoding a heartbeat body reads as many extras as its 16-bit count says. -/
theorem decodeHeartbeatBody_fields {serviceName nodeId : Bytes} {timestamp : UInt64}
    {entries : List (Σ _ : Bytes, Bytes)} (shortService : serviceName.length ≤ 65535)
    (shortNode : nodeId.length ≤ 65535)
    (short : ∀ entry ∈ entries, entry.1.length ≤ 65535 ∧ entry.2.length ≤ 65535)
    {body : Bytes}
    (whole : body = stringField serviceName ++ (stringField nodeId ++ (encodeU64 timestamp ++
      (encodeU16 (UInt16.ofNat entries.length) ++ extrasField entries))))
    (packet : DecodedPacket) :
    decodeHeartbeatBody body body.length packet =
      (let read := entries.take (entries.length % 65536)
       let map := read.foldl (fun map entry => map.insert entry.1 entry.2)
         packet.heartbeat.extra
       if (extrasField read).length ≠ (extrasField entries).length then
         (false, { packet with heartbeat := { packet.heartbeat with extra := map } })
       else
         (true, { packet with heartbeat := ⟨serviceName, nodeId, timestamp.toInt64, map⟩ })) := by
  obtain ⟨pos, atExtras, size, decoded⟩ := decodeHeartbeatBody_front shortService shortNode whole packet
  rw [← List.append_nil (extrasField _)] at atExtras
  rw [decoded, UInt16.toNat_ofNat', readExtras_of_drop short atExtras (by omega) (Nat.mod_le _ _)]
  dsimp only
  simp only [size, ne_eq, Option.some.injEq, Nat.add_left_cancel_iff, Nat.reducePow]

theorem decodeHeartbeatBody_encoded {hb : Heartbeat} (short : ShortStrings hb)
    (packet : DecodedPacket) :
    decodeHeartbeatBody (heartbeatFields hb) (heartbeatFields hb).length packet =
      (let read := hb.extra.entries.take (hb.extra.entries.length % 65536)
       let map := read.foldl (fun map entry => map.insert entry.1 entry.2)
         packet.heartbeat.extra
       if (extrasField read).length ≠ (extrasField hb.extra.entries).length then
         (false, { packet with heartbeat := { packet.heartbeat with extra := map } })
       else
         (true,
           { packet with heartbeat := ⟨hb.serviceName, hb.nodeId, hb.timestamp, map⟩ })) := by
  have layout : heartbeatFields hb = stringField hb.serviceName ++ (stringField hb.nodeId ++
      (encodeU64 hb.timestamp.toUInt64 ++ (encodeU16 (UInt16.ofNat hb.extra.entries.length) ++
        extrasField hb.extra.entries))) := rfl
  rw [decodeHeartbeatBody_fields short.serviceName short.nodeId short.extra layout packet,
    Int64.toInt64_toUInt64]

end RpcFramework.Codec
