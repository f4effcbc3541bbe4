import RpcFramework.Codec.Stream

/-!
# What a receiver obtains from a stream

The decoder of the source as an incremental decoder, the round trip of whole
streams, and the streams on which the decoder leaves the frame boundaries: an
oversized body is dropped at its header, and the rest of it is then read as if
new packets started there.
-/

namespace RpcFramework.Codec

open Framing

/-- Decoding from a buffer, each call into a new packet.  A new packet has
whatever type and id the memory had, which may differ from call to call. -/
def decoder (pb : Protobuf) (memory : Buffer → MsgType × UInt64) :
    Decoder Buffer UInt8 DecodedPacket where
  unread := Buffer.readable
  append := Buffer.append
  decode buf :=
    let called := decode pb buf (.fresh (memory buf).1 (memory buf).2)
    (if called.1 then some called.2.2 else none, called.2.1)
  unread_append buf chunk := buf.readable_append chunk
  decode_le buf := by
    have smaller := decodeBytes_le pb buf.readable (.fresh (memory buf).1 (memory buf).2)
    rw [decode_view] at smaller
    exact smaller
  decode_shrinks buf packet next called := by
    have view := decode_view pb buf (.fresh (memory buf).1 (memory buf).2)
    generalize decode pb buf (.fresh (memory buf).1 (memory buf).2) = outcome at called view
    obtain ⟨accepted, after, filled⟩ := outcome
    cases accepted with
    | false => cases called
    | true =>
        cases called
        obtain ⟨frame, left⟩ := decodeBytes_true view
        exact left ▸ frame.length_drop_lt

section Streams

variable {pb : Protobuf} {memory : Buffer → MsgType × UInt64}

theorem decoder_view (buf : Buffer) {accepted : Bool} {rest : Bytes} {filled : DecodedPacket}
    (called : decodeBytes pb buf.readable (.fresh (memory buf).1 (memory buf).2) =
      (accepted, rest, filled)) :
    ((decoder pb memory).decode buf).1 = (if accepted then some filled else none) ∧
      ((decoder pb memory).decode buf).2.readable = rest := by
  rw [decode_view] at called
  obtain ⟨first, second⟩ := Prod.mk.inj called
  obtain ⟨left, last⟩ := Prod.mk.inj second
  constructor
  · rw [← first, ← last]
    rfl
  · exact left

theorem decoder_idle : Idle (decoder pb memory) := by
  intro buf empty
  change buf.readable = [] at empty
  have short : decodeBytes pb buf.readable (.fresh (memory buf).1 (memory buf).2) =
      (false, [], .fresh (memory buf).1 (memory buf).2) := by
    rw [empty]
    rfl
  exact decoder_view buf short

/-- A packet whose body is within the limit is a frame, while the buffer is within its limit. -/
theorem delimits_message {m : Message} (encoded : m.body pb ≠ [])
    (small : (m.body pb).length ≤ kMaxBodyLen) :
    Delimits (decoder pb memory) (fun buf => buf.readableBytes ≤ kMaxBufferSize)
      (Message.encode pb) (Message.verdict pb) m := by
  refine ⟨?_, ?_, ?_⟩
  · rw [Message.encode_of_body encoded, ← List.length_pos_iff, length_pack, kFixedHeaderSize]
    omega
  · intro buf rest fits buffered
    change buf.readable = _ at buffered
    rw [← buf.length_readable, buffered, Message.encode_of_body encoded] at fits
    rw [Message.encode_of_body encoded] at buffered
    have called := decodeBytes_pack pb m.msgType m.reqId small fits
      (.fresh (memory buf).1 (memory buf).2)
    rw [← buffered] at called
    obtain ⟨outcome, left⟩ := decoder_view buf called
    exact ⟨outcome.trans (bodyOutcome_fresh pb _ _ _ _ _), left⟩
  · intro buf missing fits proper part
    change buf.readable ++ missing = _ at part
    rw [← buf.length_readable] at fits
    rw [Message.encode_of_body encoded] at part
    exact decoder_view buf (decodeBytes_waits pb m.msgType m.reqId small proper part fits _)

/-- The packets decoded from accepted bodies carry their messages, one by one. -/
theorem carried_verdicts {msgs : List Message} (kept : ∀ m ∈ msgs, m.Kept pb)
    (encoded : ∀ m ∈ msgs, m.body pb ≠ [])
    (small : ∀ m ∈ msgs, (m.body pb).length ≤ kMaxBodyLen) :
    List.Forall₂ Message.Carried (msgs.filter fun m => (m.verdict pb).isSome)
      (msgs.filterMap (Message.verdict pb)) := by
  induction msgs with
  | nil => exact .nil
  | cons m msgs ih =>
      have first : m ∈ m :: msgs := List.mem_cons_self ..
      have later := ih (fun other member => kept other (List.mem_cons_of_mem _ member))
        (fun other member => encoded other (List.mem_cons_of_mem _ member))
        (fun other member => small other (List.mem_cons_of_mem _ member))
      cases accepted : m.verdict pb with
      | none =>
          rw [List.filterMap_cons_none accepted, List.filter_cons_of_neg (by simp [accepted])]
          exact later
      | some packet =>
          rw [List.filterMap_cons_some accepted, List.filter_cons_of_pos (by simp [accepted])]
          refine .cons ?_ later
          exact m.carried_of_accepted (kept m first) (encoded m first) (small m first) accepted

/--
The round trip of streams: however the packets of messages within the limits
are cut into chunks, the receiver obtains exactly these messages, in order, and
its buffer is empty at the end.
-/
theorem decode_stream (pb : Protobuf) (memory : Buffer → MsgType × UInt64)
    {msgs : List Message} {buf : Buffer} {chunks : List Bytes}
    (limits : ∀ m ∈ msgs, m.WithinLimits) (inverted : ∀ m ∈ msgs, m.Inverted pb)
    (small : ∀ m ∈ msgs, (m.body pb).length ≤ kMaxBodyLen)
    (empty : buf.readable = []) (cut : chunks.flatten = msgs.flatMap (Message.encode pb))
    (fits : ∀ call ∈ (feed (decoder pb memory) buf chunks).1,
      call.1.readableBytes ≤ kMaxBufferSize) :
    List.Forall₂ Message.Carried msgs (decoded (feed (decoder pb memory) buf chunks).1) ∧
      (feed (decoder pb memory) buf chunks).2.readable = [] := by
  have encoded : ∀ m ∈ msgs, m.body pb ≠ [] := fun m member =>
    m.body_of_limits (limits m member) (inverted m member)
  have accepted : ∀ m ∈ msgs, (m.verdict pb).isSome := fun m member =>
    m.accepted_of_limits (limits m member) (inverted m member) (small m member)
  have delimited : ∀ m ∈ msgs, Delimits (decoder pb memory)
      (fun buf => buf.readableBytes ≤ kMaxBufferSize) (Message.encode pb)
      (Message.verdict pb) m := fun m member =>
    delimits_message (encoded m member) (small m member)
  have inStep : (decoder pb memory).unread buf ++ chunks.flatten =
      msgs.flatMap (Message.encode pb) := by
    rw [show (decoder pb memory).unread buf = [] from empty, List.nil_append, cut]
  have waiting : Waiting (decoder pb memory) (Message.encode pb) buf msgs := by
    intro m later whole covered
    rw [show (decoder pb memory).unread buf = [] from empty, List.prefix_nil] at covered
    exact (delimited m (by simp [whole])).nonempty covered
  obtain ⟨outputs, used⟩ := feed_accepting decoder_idle chunks delimited accepted fits inStep
    waiting
  refine ⟨?_, used⟩
  have carried := carried_verdicts (fun m member => (inverted m member).kept) encoded small
  rw [List.filter_eq_self.mpr accepted, ← outputs] at carried
  exact carried

/-- A short session: a request, its response and a heartbeat. -/
def sampleSession : List Message :=
  [.request ⟨[1, 2, 3], ∅⟩ 7 [0x45] [0x65, 0x63], .response ⟨true, [4], []⟩ 7 .timeout,
    .heartbeat ⟨[0x45], [0x6E], 1700000000, AList.insert [0x7A] [0x61] ∅⟩ 0]

theorem inverted_sampleSession : ∀ m ∈ sampleSession, m.Inverted Wire.wireProtobuf := by
  intro m member
  simp only [sampleSession, List.mem_cons, List.not_mem_nil, or_false] at member
  rcases member with rfl | rfl | rfl
  · exact Wire.inverts_request rfl (by decide)
  · exact Wire.inverts_response (by decide) (by decide)
  · trivial

/-- The packets of the session. -/
def sampleBytes : Bytes := sampleSession.flatMap (Message.encode Wire.wireProtobuf)

theorem decode_stream_sampleSession :
    List.Forall₂ Message.Carried sampleSession
      (decoded (feed (decoder Wire.wireProtobuf fun _ => (.heartbeat, 5)) Buffer.empty
        [sampleBytes.take 11, sampleBytes.drop 11]).1) ∧
      (feed (decoder Wire.wireProtobuf fun _ => (.heartbeat, 5)) Buffer.empty
        [sampleBytes.take 11, sampleBytes.drop 11]).2.readable = [] := by
  have cut : [sampleBytes.take 11, sampleBytes.drop 11].flatten = sampleBytes := by
    simp
  apply decode_stream Wire.wireProtobuf _ _ _ _ Buffer.readable_empty cut
  · intro call member
    rw [← Buffer.length_readable]
    apply feed_le (decoder Wire.wireProtobuf fun _ => (.heartbeat, 5)) _ _ call member
    rw [cut]
    decide +kernel
  · intro m member
    simp only [sampleSession, List.mem_cons, List.not_mem_nil, or_false] at member
    rcases member with rfl | rfl | rfl
    · exact ⟨by decide, by decide⟩
    · trivial
    · exact ⟨⟨by decide, by decide, by decide⟩, by decide⟩
  · exact inverted_sampleSession
  · decide +kernel

/-! ## Frames that were never sent -/

theorem flatMap_encode_filter (msgs : List Message) :
    (msgs.filter fun m => !(m.body pb).isEmpty).flatMap (Message.encode pb) =
      msgs.flatMap (Message.encode pb) := by
  induction msgs with
  | nil => rfl
  | cons m msgs ih =>
      cases failed : (m.body pb).isEmpty with
      | true =>
          have nothing : m.encode pb = [] := by rw [Message.encode_eq, failed, if_pos rfl]
          rw [List.filter_cons_of_neg (by simp [failed]), ih, List.flatMap_cons, nothing,
            List.nil_append]
      | false =>
          rw [List.filter_cons_of_pos (by simp [failed]), List.flatMap_cons, ih,
            List.flatMap_cons]

/--
While no body is longer than `kMaxBodyLen` and no call finds more than
`kMaxBufferSize` unread bytes, whatever the payloads and the chunks, the
receiver obtains a subsequence of the messages that were encoded.
-/
theorem received_among_sent (pb : Protobuf) (memory : Buffer → MsgType × UInt64)
    {msgs : List Message} {buf : Buffer} {chunks : List Bytes}
    (kept : ∀ m ∈ msgs, m.Kept pb)
    (small : ∀ m ∈ msgs, (m.body pb).length ≤ kMaxBodyLen)
    (empty : buf.readable = []) (cut : chunks.flatten = msgs.flatMap (Message.encode pb))
    (fits : ∀ call ∈ (feed (decoder pb memory) buf chunks).1,
      call.1.readableBytes ≤ kMaxBufferSize) :
    ∃ received, List.Sublist received msgs ∧
      List.Forall₂ Message.Carried received
        (decoded (feed (decoder pb memory) buf chunks).1) := by
  let sent := msgs.filter fun m => !(m.body pb).isEmpty
  have member : ∀ m ∈ sent, m ∈ msgs ∧ m.body pb ≠ [] := by
    intro m inSent
    obtain ⟨inMsgs, encoded⟩ := List.mem_filter.mp inSent
    exact ⟨inMsgs, by simpa using encoded⟩
  have delimited : ∀ m ∈ sent, Delimits (decoder pb memory)
      (fun buf => buf.readableBytes ≤ kMaxBufferSize) (Message.encode pb)
      (Message.verdict pb) m := fun m inSent =>
    delimits_message (member m inSent).2 (small m (member m inSent).1)
  have inStep : (decoder pb memory).unread buf ++ chunks.flatten =
      sent.flatMap (Message.encode pb) := by
    rw [show (decoder pb memory).unread buf = [] from empty, List.nil_append, cut,
      flatMap_encode_filter]
  have among := feed_sublist decoder_idle chunks delimited fits inStep
  obtain ⟨settled, part, outputs⟩ := List.sublist_filterMap_iff.mp among
  have inSent : ∀ m ∈ settled, m ∈ sent := fun m here => part.subset here
  rw [outputs]
  refine ⟨settled.filter fun m => (m.verdict pb).isSome, ?_, ?_⟩
  · exact (List.filter_sublist.trans part).trans List.filter_sublist
  · exact carried_verdicts (fun m here => kept m (member m (inSent m here)).1)
      (fun m here => (member m (inSent m here)).2)
      (fun m here => small m (member m (inSent m here)).1)

theorem received_among_sent_sampleSession :
    ∃ received, List.Sublist received sampleSession ∧
      List.Forall₂ Message.Carried received
        (decoded (feed (decoder Wire.wireProtobuf fun _ => (.request, 0)) Buffer.empty
          [sampleBytes]).1) := by
  apply received_among_sent Wire.wireProtobuf _ _ _ Buffer.readable_empty (List.append_nil _)
  · intro call member
    rw [← Buffer.length_readable]
    apply feed_le (decoder Wire.wireProtobuf fun _ => (.request, 0)) _ _ call member
    decide +kernel
  · exact fun m member => (inverted_sampleSession m member).kept
  · decide +kernel

/-- After a chunk that makes the decoder drop everything it starts afresh. -/
theorem decoded_after_drop (memory : Buffer → MsgType × UInt64) {start : Buffer} {chunk : Bytes}
    (dropped : ∀ packet, decodeBytes pb (start.readable ++ chunk) packet = (false, [], packet)) :
    ∃ next : Buffer, next.readable = [] ∧ ∀ chunks,
      decoded (feed (decoder pb memory) start (chunk :: chunks)).1 =
        decoded (feed (decoder pb memory) next chunks).1 := by
  rw [← Buffer.readable_append] at dropped
  obtain ⟨silent, empty⟩ := decoder_view _ (dropped (.fresh (memory _).1 (memory _).2))
  refine ⟨((decoder pb memory).decode (start.append chunk)).2, empty, ?_⟩
  intro chunks
  exact decoded_feed_of_none (Prod.ext silent rfl) chunks

/-- A packet that arrives at an empty buffer in one piece is decoded. -/
theorem mem_decoded_of_verdict (memory : Buffer → MsgType × UInt64) {start : Buffer}
    (empty : start.readable = []) {m : Message}
    (encoded : m.body pb ≠ []) (small : (m.body pb).length ≤ kMaxBodyLen)
    (fits : (m.encode pb).length ≤ kMaxBufferSize) {packet : DecodedPacket}
    (accepted : m.verdict pb = some packet) (chunks : List Bytes) :
    packet ∈ decoded (feed (decoder pb memory) start (m.encode pb :: chunks)).1 := by
  have appended : (start.append (m.encode pb)).readable = m.encode pb ++ [] := by
    rw [Buffer.readable_append, empty, List.nil_append, List.append_nil]
  have ok : (start.append (m.encode pb)).readableBytes ≤ kMaxBufferSize := by
    rw [← Buffer.length_readable, appended, List.append_nil]
    exact fits
  have frame : Delimits (decoder pb memory) _ _ _ m := delimits_message encoded small
  have settled := frame.complete _ [] ok appended
  exact mem_decoded_feed_of_some (Prod.ext (settled.1.trans accepted) rfl) chunks

/-- A packet within the limits is decoded to its message wherever it is received. -/
theorem decode_encoded {m : Message} (limits : m.WithinLimits) (inverted : m.Inverted pb)
    (small : (m.body pb).length ≤ kMaxBodyLen) {buf : Buffer} {rest : Bytes}
    (buffered : buf.readable = m.encode pb ++ rest) (fits : buf.readableBytes ≤ kMaxBufferSize)
    (anyType : MsgType) (anyId : UInt64) :
    (decode pb buf (.fresh anyType anyId)).1 = true ∧
      m.Carried (decode pb buf (.fresh anyType anyId)).2.2 := by
  have encoded := m.body_of_limits limits inverted
  obtain ⟨packet, accepted⟩ :=
    Option.isSome_iff_exists.mp (m.accepted_of_limits limits inverted small)
  have carried := m.carried_of_accepted inverted.kept encoded small accepted
  have frame : Delimits (decoder pb fun _ => (anyType, anyId)) _ _ _ m :=
    delimits_message encoded small
  have settled := (frame.complete buf rest fits buffered).1.trans accepted
  obtain ⟨succeeded, filled⟩ := Option.ite_none_right_eq_some.mp settled
  cases filled
  exact ⟨succeeded, carried⟩

/-- A response that is not sent as a packet of its own. -/
def forgedResponse : Message := .response ⟨true, [], []⟩ 9 .success

/-- The bytes of the forged response, followed by as many zeros as a body may have. -/
def embeddingPayload : Bytes :=
  forgedResponse.encode Wire.wireProtobuf ++ List.replicate kMaxBodyLen 0

def embeddingRequest : Message := .request ⟨embeddingPayload, ∅⟩ 1 [] []

/-- What precedes the payload in the body of a request without names. -/
def requestLead (payload : Bytes) : Bytes :=
  stringField [] ++ (stringField [] ++
    (encodeU32 (UInt32.ofNat (Wire.bytesField 0x0A payload).length) ++
      (0x0A :: Wire.varint 5 payload.length)))

theorem length_embeddingPayload : embeddingPayload.length = 29 + kMaxBodyLen := by
  have forged : (forgedResponse.encode Wire.wireProtobuf).length = 29 := by decide +kernel
  rw [embeddingPayload, List.length_append, forged, List.length_replicate]

/-- The fields of the body of a request without names. -/
theorem requestLead_append {payload : Bytes} (present : payload ≠ []) :
    stringField [] ++ (stringField [] ++
      (encodeU32 (UInt32.ofNat (Wire.bytesField 0x0A payload).length) ++
        Wire.bytesField 0x0A payload)) = requestLead payload ++ payload := by
  have field : Wire.bytesField 0x0A payload =
      (0x0A :: Wire.varint 5 payload.length) ++ payload := by
    rw [Wire.bytesField, List.isEmpty_eq_false_iff.mpr present, List.cons_append]
    rfl
  rw [requestLead]
  simp only [field, List.append_assoc]

theorem body_embeddingRequest :
    embeddingRequest.body Wire.wireProtobuf =
      requestLead embeddingPayload ++ embeddingPayload := by
  have present : embeddingPayload ≠ [] := by
    rw [← List.length_pos_iff, length_embeddingPayload]
    exact Nat.lt_of_lt_of_le (by decide) (Nat.le_add_right 29 _)
  have encoded : encodeRequestBody Wire.wireProtobuf ⟨embeddingPayload, ∅⟩ [] [] ≠ [] :=
    Message.body_of_limits (m := embeddingRequest) ⟨Nat.zero_le _, Nat.zero_le _⟩
      (Wire.inverts_request rfl (by rw [length_embeddingPayload]; decide))
  obtain ⟨serialization, serialized, _, _, fields⟩ := encodeRequestBody_ne_nil encoded
  cases serialized
  rw [embeddingRequest, Message.body, fields]
  exact requestLead_append present

theorem length_body_embeddingRequest :
    kMaxBodyLen < (embeddingRequest.body Wire.wireProtobuf).length ∧
      (embeddingRequest.body Wire.wireProtobuf).length < 2 ^ 32 := by
  have lead : (requestLead embeddingPayload).length = 13 := by
    rw [requestLead, length_embeddingPayload]
    decide +kernel
  rw [body_embeddingRequest, List.length_append, lead, length_embeddingPayload]
  decide

/-- The packet of the request up to its payload. -/
def embeddingFront : Bytes :=
  fixedHeader .request 1 (embeddingRequest.body Wire.wireProtobuf).length ++
    requestLead embeddingPayload

theorem embeddingRequest_inverted : embeddingRequest.Inverted Wire.wireProtobuf :=
  Wire.inverts_request rfl (by rw [length_embeddingPayload]; decide)

theorem encode_embeddingRequest :
    ∃ tail, embeddingRequest.encode Wire.wireProtobuf =
      embeddingFront ++ (forgedResponse.encode Wire.wireProtobuf ++ tail) := by
  have encoded := Message.body_of_limits (m := embeddingRequest)
    ⟨Nat.zero_le _, Nat.zero_le _⟩ embeddingRequest_inverted
  have fields : embeddingRequest.body Wire.wireProtobuf = requestLead embeddingPayload ++
      (forgedResponse.encode Wire.wireProtobuf ++ List.replicate kMaxBodyLen 0) :=
    body_embeddingRequest
  rw [Message.encode_of_body encoded, pack, embeddingFront]
  generalize encodeU32 _ = checksum
  refine ⟨List.replicate kMaxBodyLen 0 ++ checksum, ?_⟩
  generalize List.length (embeddingRequest.body Wire.wireProtobuf) = len
  rw [fields]
  simp only [List.append_assoc]
  rfl

/--
The front of the request is dropped, and the chunk that holds the embedded
bytes is returned as a packet with the id of the forged response.
-/
theorem forgedResponse_received :
    embeddingRequest.Inverted Wire.wireProtobuf ∧ ∃ chunks : List Bytes,
      chunks.flatten = [embeddingRequest].flatMap (Message.encode Wire.wireProtobuf) ∧
      ∀ memory, ¬ ∃ received, List.Sublist received [embeddingRequest] ∧
        List.Forall₂ Message.Carried received
          (decoded (feed (decoder Wire.wireProtobuf memory) Buffer.empty chunks).1) := by
  obtain ⟨tail, whole⟩ := encode_embeddingRequest
  refine ⟨embeddingRequest_inverted,
    [embeddingFront, forgedResponse.encode Wire.wireProtobuf, tail], ?_, ?_⟩
  · rw [List.flatMap_singleton, whole, List.flatten_cons, List.flatten_cons,
      List.flatten_singleton]
  · rintro memory ⟨received, part, carried⟩
    have dropped : ∀ packet, decodeBytes Wire.wireProtobuf
        (Buffer.empty.readable ++ embeddingFront) packet = (false, [], packet) := by
      obtain ⟨big, small⟩ := length_body_embeddingRequest
      rw [Buffer.readable_empty, List.nil_append]
      exact decodeBytes_oversized _ _ _ big small _
    obtain ⟨next, empty, after⟩ := decoded_after_drop memory dropped
    obtain ⟨forged, accepted, forgedId⟩ : ∃ forged,
        forgedResponse.verdict Wire.wireProtobuf = some forged ∧ forged.reqId = 9 :=
      ⟨_, rfl, rfl⟩
    have returned := mem_decoded_of_verdict memory empty (by decide) (by decide)
      (by decide +kernel) accepted [tail]
    rw [← after] at returned
    generalize decoded _ = packets at carried returned
    rcases List.sublist_singleton.mp part with rfl | rfl
    · cases carried
      cases returned
    · cases carried with
      | cons same none =>
          cases none
          rw [List.mem_singleton.mp returned] at forgedId
          exact absurd (same.2.1.symm.trans forgedId) (by decide)

end Streams

end RpcFramework.Codec
