import RpcFramework.Codec.Received

/-!
# Resynchronisation behind garbage

A decode call on bytes that do not start with the magic looks for the magic
behind the first byte and drops what precedes it.  The four bytes of the magic
are distinct, so no window across the end of the garbage is taken for it.  If
the scan finds nothing the call drops everything, also the first bytes of a
magic that has not arrived completely.
-/

namespace RpcFramework.Codec

open Framing

/-- The magic on the wire. -/
def magicBytes : Bytes := encodeU32 kMagic

/-- Bytes in which the magic does not occur. -/
def Clean (garbage : Bytes) : Prop := ¬ magicBytes <:+: garbage

/-! ## Windows -/

theorem checkMagic_iff {bytes : Bytes} (size : bytes.length = 4) :
    checkMagic (decodeU32 bytes) = true ↔ bytes = magicBytes := by
  rw [checkMagic, beq_iff_eq]
  constructor
  · intro same
    rw [← encodeU32_decodeU32 size, same]
    rfl
  · intro same
    rw [same, magicBytes, decodeU32_encodeU32]

/-- The first byte of the magic does not occur in it again. -/
theorem magicBytes_lead_once : ∀ k < 4, magicBytes[k]? = magicBytes.head? → k = 0 := by decide

section Garbage

variable {garbage rest : Bytes}

theorem Clean.of_suffix {suffix : Bytes} (clean : Clean (rest ++ suffix)) : Clean suffix :=
  fun found => clean (found.trans (List.suffix_append rest suffix).isInfix)

/-- No window that starts in the garbage is the magic, also none that reaches
into bytes which start like the magic. -/
theorem Clean.load_ne (clean : Clean garbage) (lead : rest = [] ∨ rest.head? = magicBytes.head?)
    {i : Nat} (inside : i < garbage.length) (within : i + 4 ≤ (garbage ++ rest).length) :
    load (garbage ++ rest) i 4 ≠ magicBytes := by
  intro same
  by_cases whole : i + 4 ≤ garbage.length
  · rw [load_append whole] at same
    apply clean
    rw [← same]
    exact (List.take_prefix 4 _).isInfix.trans (List.drop_suffix i garbage).isInfix
  · rw [List.length_append] at within
    have nonempty : rest ≠ [] := by
      rintro rfl
      exact whole within
    have here : (load (garbage ++ rest) i 4)[garbage.length - i]? = rest.head? := by
      rw [load, List.getElem?_take_of_lt (by omega), List.getElem?_drop,
        List.getElem?_append_right (by omega), List.head?_eq_getElem?]
      congr 1
      omega
    rw [same, lead.resolve_left nonempty] at here
    have start := magicBytes_lead_once (garbage.length - i) (by omega) here
    omega

theorem Clean.checkMagic_false (clean : Clean garbage)
    (lead : rest = [] ∨ rest.head? = magicBytes.head?) {i : Nat} (inside : i < garbage.length)
    (within : i + 4 ≤ (garbage ++ rest).length) :
    checkMagic (decodeU32 (load (garbage ++ rest) i 4)) = false := by
  rw [← Bool.not_eq_true, checkMagic_iff (length_load within)]
  exact clean.load_ne lead inside within

/-- The scan stops at the end of the garbage when the magic is there. -/
theorem Clean.scanMagic_found (clean : Clean garbage) (some_garbage : garbage ≠ [])
    (short : garbage.length ≤ 1020) (magic : magicBytes <+: rest) :
    scanMagic (garbage ++ rest) (min (garbage ++ rest).length kMaxScanBytes) =
      some garbage.length := by
  obtain ⟨behind, rfl⟩ := magic
  have positive := List.length_pos_iff.mpr some_garbage
  have size : (garbage ++ (magicBytes ++ behind)).length = garbage.length + 4 + behind.length := by
    simp [magicBytes, Nat.add_assoc]
  rw [scanMagic, List.find?_range'_eq_some, List.mem_range'_1, size, kMaxScanBytes]
  refine ⟨?_, by omega, ?_⟩
  · rw [checkMagic_iff (length_load (by omega)), load, List.drop_left]
    exact List.take_left' (length_encodeU32 _)
  · intro i _ inside
    have lead : (magicBytes ++ behind).head? = magicBytes.head? := rfl
    rw [clean.checkMagic_false (Or.inr lead) inside (by omega)]
    rfl

/-- The scan finds nothing while the magic is not complete. -/
theorem Clean.scanMagic_none (clean : Clean garbage)
    (lead : rest = [] ∨ rest.head? = magicBytes.head?) (part : rest.length < 4) :
    scanMagic (garbage ++ rest) (min (garbage ++ rest).length kMaxScanBytes) = none := by
  have size : (garbage ++ rest).length = garbage.length + rest.length := List.length_append
  rw [scanMagic, List.find?_range'_eq_none, size]
  intro i positive within
  rw [clean.checkMagic_false lead (by omega) (by omega)]
  rfl

/-! ## One call -/

theorem decodeBytes_scans (pb : Protobuf) (packet : DecodedPacket) (clean : Clean garbage)
    (some_garbage : garbage ≠ []) (lead : rest = [] ∨ rest.head? = magicBytes.head?)
    (header : kFixedHeaderSize ≤ (garbage ++ rest).length)
    (fits : (garbage ++ rest).length ≤ kMaxBufferSize) :
    decodeBytes pb (garbage ++ rest) packet =
      match scanMagic (garbage ++ rest) (min (garbage ++ rest).length kMaxScanBytes) with
      | some i => (false, (garbage ++ rest).drop i, packet)
      | none => (false, [], packet) := by
  have positive := List.length_pos_iff.mpr some_garbage
  have other := clean.checkMagic_false lead positive (Nat.le_trans (by decide) header)
  rw [decodeBytes, if_neg (Nat.not_lt.mpr header), if_neg (Nat.not_lt.mpr fits), other]
  rfl

/-- A call on garbage in front of a magic drops the garbage. -/
theorem decodeBytes_skips (pb : Protobuf) (packet : DecodedPacket) (clean : Clean garbage)
    (some_garbage : garbage ≠ []) (short : garbage.length ≤ 1020) (magic : magicBytes <+: rest)
    (header : kFixedHeaderSize ≤ (garbage ++ rest).length)
    (fits : (garbage ++ rest).length ≤ kMaxBufferSize) :
    decodeBytes pb (garbage ++ rest) packet = (false, rest, packet) := by
  have lead : rest.head? = magicBytes.head? := by
    obtain ⟨behind, rfl⟩ := magic
    rfl
  rw [decodeBytes_scans pb packet clean some_garbage (Or.inr lead) header fits,
    clean.scanMagic_found some_garbage short magic]
  dsimp only
  rw [List.drop_left]

/-- A call on garbage and less than a magic drops everything. -/
theorem decodeBytes_drops (pb : Protobuf) (packet : DecodedPacket) (clean : Clean garbage)
    (some_garbage : garbage ≠ []) (lead : rest = [] ∨ rest.head? = magicBytes.head?)
    (part : rest.length < 4) (header : kFixedHeaderSize ≤ (garbage ++ rest).length)
    (fits : (garbage ++ rest).length ≤ kMaxBufferSize) :
    decodeBytes pb (garbage ++ rest) packet = (false, [], packet) := by
  rw [decodeBytes_scans pb packet clean some_garbage lead header fits,
    clean.scanMagic_none lead part]

end Garbage

/-! ## Garbage in front of a packet -/

section Packet

variable {pb : Protobuf} {m : Message}

theorem magicBytes_prefix_pack (msgType : MsgType) (reqId : UInt64) (body : Bytes) :
    magicBytes <+: pack msgType reqId body := by
  rw [pack, fixedHeader]
  simp only [List.append_assoc]
  exact List.prefix_append _ _

theorem magicBytes_prefix_encode (encoded : m.body pb ≠ []) : magicBytes <+: m.encode pb := by
  rw [Message.encode_of_body encoded]
  exact magicBytes_prefix_pack _ _ _

theorem length_encode (encoded : m.body pb ≠ []) :
    (m.encode pb).length = kFixedHeaderSize + (m.body pb).length + kChecksumSize := by
  rw [Message.encode_of_body encoded, length_pack]

/--
A call on garbage in front of a packet fails and leaves exactly the packet and
what follows it; the next call decodes the packet and leaves what follows it.
-/
theorem decode_resynchronises (pb : Protobuf) {m : Message} (limits : m.WithinLimits)
    (inverted : m.Inverted pb) {garbage rest : Bytes} (some_garbage : garbage ≠ [])
    (short : garbage.length ≤ 1020) (clean : Clean garbage) {buf : Buffer}
    (buffered : buf.readable = garbage ++ (m.encode pb ++ rest))
    (fits : garbage.length + (m.encode pb).length + rest.length ≤ kMaxBufferSize)
    (anyType : MsgType) (anyId : UInt64) :
    ∃ next skipped, decode pb buf (.fresh anyType anyId) = (false, next, skipped) ∧
      next.readable = m.encode pb ++ rest ∧
      ∃ last decoded, decode pb next skipped = (true, last, decoded) ∧ m.Carried decoded ∧
        last.readable = rest := by
  have encoded := m.body_of_limits limits inverted
  have size := length_encode encoded
  have small : (m.body pb).length ≤ kMaxBodyLen := by
    unfold kMaxBufferSize at fits
    unfold kMaxBodyLen
    omega
  have total : (garbage ++ (m.encode pb ++ rest)).length =
      garbage.length + (m.encode pb).length + rest.length := by
    rw [List.length_append, List.length_append, Nat.add_assoc]
  have skips := decodeBytes_skips pb (.fresh anyType anyId) clean some_garbage short
    ((magicBytes_prefix_encode encoded).trans (List.prefix_append _ rest)) (by omega) (by omega)
  rw [← buffered, decode_view] at skips
  generalize decode pb buf (.fresh anyType anyId) = called at skips
  obtain ⟨accepted, next, skipped⟩ := called
  obtain ⟨rfl, left, rfl⟩ : accepted = false ∧ next.readable = m.encode pb ++ rest ∧
      skipped = .fresh anyType anyId := by simpa using skips
  have room : next.readableBytes ≤ kMaxBufferSize := by
    rw [← next.length_readable, left, List.length_append]
    omega
  refine ⟨next, _, rfl, left, ?_⟩
  obtain ⟨succeeds, carried⟩ := decode_encoded limits inverted small left room anyType anyId
  have view := decodeBytes_pack pb m.msgType m.reqId small
    (by rw [← Message.encode_of_body encoded, ← left, next.length_readable]; exact room)
    (.fresh anyType anyId)
  rw [← Message.encode_of_body encoded, ← left, decode_view] at view
  generalize decode pb next (.fresh anyType anyId) = called at succeeds carried view
  obtain ⟨accepted, last, decoded⟩ := called
  cases succeeds
  exact ⟨last, decoded, rfl, carried, (Prod.mk.inj (Prod.mk.inj view).2).1⟩

/-- A heartbeat behind a byte that is no packet. -/
def sampleHeartbeat : Message := .heartbeat .cleared 5

theorem sampleHeartbeat_limits : sampleHeartbeat.WithinLimits :=
  ⟨⟨by decide, by decide, by decide⟩, by decide⟩

theorem decode_resynchronises_sampleHeartbeat :
    ∃ next skipped, decode Wire.wireProtobuf
        (Buffer.empty.append ([0x52] ++ (sampleHeartbeat.encode Wire.wireProtobuf ++ [7])))
        (.fresh .request 0) = (false, next, skipped) ∧
      next.readable = sampleHeartbeat.encode Wire.wireProtobuf ++ [7] := by
  have clean : Clean [0x52] := by
    unfold Clean
    decide
  have buffered : (Buffer.empty.append
      ([0x52] ++ (sampleHeartbeat.encode Wire.wireProtobuf ++ [7]))).readable =
        [0x52] ++ (sampleHeartbeat.encode Wire.wireProtobuf ++ [7]) :=
    Buffer.readable_empty_append _
  obtain ⟨next, skipped, first, left, _⟩ := decode_resynchronises Wire.wireProtobuf
    sampleHeartbeat_limits trivial (by decide) (by decide) clean buffered
    (by decide +kernel) .request 0
  exact ⟨next, skipped, first, left⟩

/-! ## Garbage and a packet in chunks -/

/--
Whether the magic of a packet behind `garbage` bytes survives the chunks, when
`buffered` bytes have arrived and wait.  From the eighteenth buffered byte on a
chunk that ends inside the garbage makes the decoder drop it, and a chunk that
ends behind the garbage has to complete the magic and to fit into the buffer.
-/
def magicArrives (garbage buffered : Nat) : List Bytes → Bool
  | [] => true
  | chunk :: chunks =>
      if garbage = 0 then true
      else if buffered + chunk.length < kFixedHeaderSize then
        magicArrives garbage (buffered + chunk.length) chunks
      else if buffered + chunk.length ≤ garbage then
        magicArrives (garbage - (buffered + chunk.length)) 0 chunks
      else garbage + 4 ≤ buffered + chunk.length && buffered + chunk.length ≤ kMaxBufferSize

section Chunks

variable {memory : Buffer → MsgType × UInt64} {buf : Buffer}

/-- Calls on bytes of which the first call drops everything. -/
theorem exhaust_of_dropped (header : kFixedHeaderSize ≤ buf.readable.length)
    (drops : ∀ packet, decodeBytes pb buf.readable packet = (false, [], packet)) :
    (exhaust (decoder pb memory) buf).1 = [] ∧
      (exhaust (decoder pb memory) buf).2.readable = [] := by
  obtain ⟨silent, empty⟩ := decoder_view buf (drops (.fresh (memory buf).1 (memory buf).2))
  have skips := exhaust_of_skip (Prod.ext silent rfl) (by
    change List.length (((decoder pb memory).decode buf).2.readable) < buf.readable.length
    rw [empty]
    exact Nat.lt_of_lt_of_le (by decide) header)
  obtain ⟨again, still⟩ := decoder_idle _ empty
  have rests := exhaust_of_wait (Prod.ext again rfl) (still.trans empty.symm)
  rw [skips, rests]
  exact ⟨rfl, still⟩

/-- Calls on too few bytes. -/
theorem exhaust_of_short (short : buf.readable.length < kFixedHeaderSize) :
    (exhaust (decoder pb memory) buf).1 = [] ∧
      (exhaust (decoder pb memory) buf).2.readable = buf.readable := by
  have waits : decodeBytes pb buf.readable (.fresh (memory buf).1 (memory buf).2) =
      (false, buf.readable, .fresh (memory buf).1 (memory buf).2) := if_pos short
  obtain ⟨silent, still⟩ := decoder_view buf waits
  have rests := exhaust_of_wait (Prod.ext silent rfl) still
  rw [rests]
  exact ⟨rfl, still⟩

/-- Bytes that have been dropped cannot be part of a packet any more. -/
theorem feedExhaust_ne_of_lost (empty : buf.readable = []) {chunks : List Bytes} {packet : Bytes}
    (lost : chunks.flatten.length < packet.length) (decoded : DecodedPacket) :
    (feedExhaust (decoder pb memory) buf chunks).1 ≠ [(packet, decoded)] := by
  intro same
  have bound := feedExhaust_le (decoder pb memory) chunks buf (packet, decoded)
    (by rw [same]; exact List.mem_singleton.mpr rfl)
  have size : ((decoder pb memory).unread buf).length = 0 := congrArg List.length empty
  dsimp only at bound
  omega

/-- A chunk after which the calls yield nothing. -/
theorem feedExhaust_of_silent {chunk : Bytes} {chunks : List Bytes}
    (silent : (exhaust (decoder pb memory) (buf.append chunk)).1 = []) :
    (feedExhaust (decoder pb memory) buf (chunk :: chunks)).1 =
      (feedExhaust (decoder pb memory)
        (exhaust (decoder pb memory) (buf.append chunk)).2 chunks).1 := by
  rw [feedExhaust]
  change (exhaust (decoder pb memory) (buf.append chunk)).1 ++ _ = _
  rw [silent, List.nil_append]
  rfl

variable {decoded : DecodedPacket}

/-- A packet within the limits of the decoder is a frame of its own. -/
theorem small_of_fits (encoded : m.body pb ≠ []) (fits : (m.encode pb).length ≤ kMaxBufferSize) :
    (m.body pb).length ≤ kMaxBodyLen := by
  rw [length_encode encoded] at fits
  exact Nat.le_trans (Nat.le_trans (Nat.le_add_left _ _) (Nat.le_add_right _ _)) fits

theorem ok_of_inStep (fits : (m.encode pb).length ≤ kMaxBufferSize) {future : Bytes}
    (inStep : buf.readable ++ future = m.encode pb) : buf.readableBytes ≤ kMaxBufferSize := by
  rw [← inStep, List.length_append, buf.length_readable] at fits
  exact Nat.le_trans (Nat.le_add_right _ _) fits

/-- Once the garbage is gone the packet is decoded, however its rest is cut. -/
theorem feedExhaust_packet (encoded : m.body pb ≠ [])
    (fits : (m.encode pb).length ≤ kMaxBufferSize) (accepted : m.verdict pb = some decoded)
    {chunks : List Bytes} (inStep : buf.readable ++ chunks.flatten = m.encode pb)
    (waiting : chunks.flatten ≠ []) :
    (feedExhaust (decoder pb memory) buf chunks).1 = [(m.encode pb, decoded)] :=
  feedExhaust_in_step decoder_idle (delimits_message encoded (small_of_fits encoded fits)) accepted
    (fun _ _ inStep => ok_of_inStep fits inStep) inStep waiting

/-- A chunk that completes the magic behind garbage: the garbage is skipped and the packet
is decoded. -/
theorem feedExhaust_of_magic (encoded : m.body pb ≠ [])
    (fits : (m.encode pb).length ≤ kMaxBufferSize) (accepted : m.verdict pb = some decoded)
    {garbage part chunk : Bytes} {chunks : List Bytes} (clean : Clean garbage)
    (some_garbage : garbage ≠ []) (short : garbage.length ≤ 1020)
    (bytes : buf.readable ++ chunk = garbage ++ part)
    (split : m.encode pb = part ++ chunks.flatten) (magic : 4 ≤ part.length)
    (header : kFixedHeaderSize ≤ (garbage ++ part).length)
    (room : (garbage ++ part).length ≤ kMaxBufferSize) :
    (feedExhaust (decoder pb memory) buf (chunk :: chunks)).1 = [(m.encode pb, decoded)] := by
  have start : magicBytes <+: part := by
    have whole := magicBytes_prefix_encode encoded
    rw [split] at whole
    exact List.prefix_of_prefix_length_le whole (List.prefix_append _ _) magic
  have skips := decodeBytes_skips pb (.fresh (memory (buf.append chunk)).1
    (memory (buf.append chunk)).2) clean some_garbage short start header room
  rw [← bytes, ← Buffer.readable_append] at skips
  obtain ⟨silent, left⟩ := decoder_view _ skips
  have rest := exhaust_of_skip (Prod.ext silent rfl) (by
    change List.length (((decoder pb memory).decode (buf.append chunk)).2.readable) <
      (buf.append chunk).readable.length
    rw [left, Buffer.readable_append, bytes, List.length_append]
    have positive := List.length_pos_iff.mpr some_garbage
    omega)
  have inStep : ((decoder pb memory).decode (buf.append chunk)).2.readable ++ chunks.flatten =
      m.encode pb := by
    rw [left]
    exact split.symm
  have ok := ok_of_inStep fits inStep
  have frame : Delimits (decoder pb memory) _ _ _ m :=
    delimits_message encoded (small_of_fits encoded fits)
  rw [feedExhaust]
  change (exhaust (decoder pb memory) (buf.append chunk)).1 ++
    (feedExhaust (decoder pb memory) (exhaust (decoder pb memory) (buf.append chunk)).2 chunks).1 = _
  rw [rest]
  rcases exhaust_in_step decoder_idle frame accepted ok inStep with
    ⟨ended, yields, empty⟩ | ⟨more, yields, still⟩
  · rw [yields, feedExhaust_idle decoder_idle empty ended, List.append_nil]
  · rw [yields, List.nil_append]
    exact feedExhaust_packet encoded fits accepted (by rw [← inStep]; exact congrArg (· ++ _) still)
      more

/-- A chunk that ends inside the garbage is dropped. -/
theorem exhaust_inside_garbage {garbage : Bytes} (clean : Clean garbage)
    (short : garbage.length ≤ 1020) (inside : buf.readable <+: garbage)
    (header : kFixedHeaderSize ≤ buf.readable.length) :
    (exhaust (decoder pb memory) buf).1 = [] ∧
      (exhaust (decoder pb memory) buf).2.readable = [] := by
  have some_bytes : buf.readable ≠ [] :=
    List.length_pos_iff.mp (Nat.lt_of_lt_of_le (by decide) header)
  have room : buf.readable.length ≤ kMaxBufferSize :=
    Nat.le_trans inside.length_le (Nat.le_trans short (by decide))
  have cleanBytes : Clean buf.readable := fun found => clean (found.trans inside.isInfix)
  refine exhaust_of_dropped header fun packet => ?_
  have called := decodeBytes_drops pb packet cleanBytes some_bytes (Or.inl rfl) (by decide)
    (by rw [List.append_nil]; exact header) (by rw [List.append_nil]; exact room)
  rw [List.append_nil] at called
  exact called

/-- A chunk that ends inside the magic, or overfills the buffer, costs the packet. -/
theorem exhaust_inside_magic (encoded : m.body pb ≠ []) {garbage part future : Bytes}
    (clean : Clean garbage) (some_garbage : garbage ≠ []) (bytes : buf.readable = garbage ++ part)
    (split : part ++ future = m.encode pb) (header : kFixedHeaderSize ≤ buf.readable.length)
    (bad : part.length < 4 ∨ kMaxBufferSize < buf.readable.length) :
    (exhaust (decoder pb memory) buf).1 = [] ∧
      (exhaust (decoder pb memory) buf).2.readable = [] := by
  refine exhaust_of_dropped header fun packet => ?_
  by_cases full : kMaxBufferSize < buf.readable.length
  · exact decodeBytes_overflow pb packet full
  · have lead : part = [] ∨ part.head? = magicBytes.head? := by
      cases part with
      | nil => exact Or.inl rfl
      | cons byte part =>
          obtain ⟨behind, whole⟩ := magicBytes_prefix_encode encoded
          have heads : (byte :: part ++ future).head? = (magicBytes ++ behind).head? :=
            congrArg List.head? (split.trans whole.symm)
          exact Or.inr heads
    rw [bytes] at header full ⊢
    exact decodeBytes_drops pb packet clean some_garbage lead
      (bad.resolve_right (by rw [bytes]; exact full)) header (Nat.le_of_not_lt full)

/--
The packet is decoded, and nothing else, if the chunks let its magic arrive, and
it is lost otherwise.  The induction is on the chunks; between two chunks less
than a header is buffered, and `garbage` is what is left of the garbage.
-/
theorem feedExhaust_garbage (encoded : m.body pb ≠ [])
    (fits : (m.encode pb).length ≤ kMaxBufferSize) (accepted : m.verdict pb = some decoded)
    (chunks : List Bytes) {garbage : Bytes} (clean : Clean garbage)
    (short : garbage.length ≤ 1020)
    (waiting : buf.readable.length < kFixedHeaderSize)
    (stream : buf.readable ++ chunks.flatten = garbage ++ m.encode pb) :
    (magicArrives garbage.length buf.readable.length chunks = true ∧
      (feedExhaust (decoder pb memory) buf chunks).1 = [(m.encode pb, decoded)]) ∨
    (magicArrives garbage.length buf.readable.length chunks = false ∧
      ∀ packet, (feedExhaust (decoder pb memory) buf chunks).1 ≠ [(m.encode pb, packet)]) := by
  have size := length_encode encoded
  induction chunks generalizing buf garbage with
  | nil =>
      have total := congrArg List.length stream
      rw [List.flatten_nil, List.append_nil, List.length_append] at total
      omega
  | cons chunk chunks ih =>
      rw [magicArrives]
      by_cases none : garbage = []
      · rw [none, List.length_nil, if_pos rfl]
        refine Or.inl ⟨rfl, ?_⟩
        rw [none, List.nil_append] at stream
        refine feedExhaust_packet encoded fits accepted stream ?_
        intro ended
        have total := congrArg List.length stream
        rw [ended, List.append_nil] at total
        omega
      have positive := List.length_pos_iff.mpr none
      have appended : (buf.append chunk).readable.length =
          buf.readable.length + chunk.length := by
        rw [Buffer.readable_append, List.length_append]
      have later : (buf.append chunk).readable ++ chunks.flatten = garbage ++ m.encode pb := by
        rw [Buffer.readable_append, List.append_assoc]
        exact stream
      have front : (buf.append chunk).readable <+: garbage ++ m.encode pb := ⟨_, later⟩
      rw [if_neg (Nat.ne_of_gt positive), ← appended]
      by_cases few : (buf.append chunk).readable.length < kFixedHeaderSize
      · rw [if_pos few]
        obtain ⟨silent, still⟩ := exhaust_of_short few
        rw [feedExhaust_of_silent silent, ← still]
        exact ih clean short (still ▸ few) (still ▸ later)
      rw [if_neg few]
      have header := Nat.le_of_not_lt few
      by_cases inside : (buf.append chunk).readable.length ≤ garbage.length
      · have covered := List.prefix_of_prefix_length_le front (List.prefix_append _ _) inside
        obtain ⟨silent, empty⟩ := exhaust_inside_garbage clean short covered header
        obtain ⟨left, rfl⟩ := covered
        have behind : chunks.flatten = left ++ m.encode pb := by
          rw [List.append_assoc] at later
          exact List.append_cancel_left later
        have gone : ((buf.append chunk).readable ++ left).length -
            (buf.append chunk).readable.length = left.length := by
          rw [List.length_append, Nat.add_sub_cancel_left]
        rw [feedExhaust_of_silent silent, if_pos inside, gone]
        have rest := @ih (exhaust (decoder pb memory) (buf.append chunk)).2 left
          (Clean.of_suffix clean) (by omega)
        rw [empty] at rest
        exact rest (by decide) behind
      · rw [if_neg inside]
        obtain ⟨part, bytes⟩ := List.prefix_of_prefix_length_le (List.prefix_append _ _) front
          (Nat.le_of_not_le inside)
        have split : part ++ chunks.flatten = m.encode pb := by
          rw [← bytes, List.append_assoc] at later
          exact List.append_cancel_left later
        have total := congrArg List.length split
        have counted := congrArg List.length bytes
        rw [List.length_append] at total counted
        by_cases good : 4 ≤ part.length ∧ (buf.append chunk).readable.length ≤ kMaxBufferSize
        · refine Or.inl ⟨?_, ?_⟩
          · rw [Bool.and_eq_true, decide_eq_true_iff, decide_eq_true_iff]
            omega
          exact feedExhaust_of_magic encoded fits accepted clean none short
            (by rw [← Buffer.readable_append, bytes]) split.symm good.1 (bytes ▸ header)
            (bytes ▸ good.2)
        · refine Or.inr ⟨?_, ?_⟩
          · rw [Bool.and_eq_false_iff, decide_eq_false_iff_not, decide_eq_false_iff_not]
            omega
          intro packet yields
          obtain ⟨silent, empty⟩ := exhaust_inside_magic encoded clean none bytes.symm split header
            (by omega)
          rw [feedExhaust_of_silent silent] at yields
          exact feedExhaust_ne_of_lost empty (by omega) packet yields

/--
However garbage and a packet behind it are cut into chunks, the packet is decoded
exactly once and nothing else is, if and only if the chunks let its magic arrive.
-/
theorem resynchronises_iff_magicArrives (pb : Protobuf) (memory : Buffer → MsgType × UInt64)
    {m : Message} (limits : m.WithinLimits) (inverted : m.Inverted pb)
    (fits : (m.encode pb).length ≤ kMaxBufferSize) {garbage : Bytes}
    (short : garbage.length ≤ 1020) (clean : Clean garbage) {chunks : List Bytes}
    (cut : chunks.flatten = garbage ++ m.encode pb) {buf : Buffer} (empty : buf.readable = []) :
    (∃ packet, (feedExhaust (decoder pb memory) buf chunks).1 = [(m.encode pb, packet)] ∧
      m.Carried packet) ↔ magicArrives garbage.length 0 chunks = true := by
  have encoded := m.body_of_limits limits inverted
  have small := small_of_fits encoded fits
  obtain ⟨decoded, accepted⟩ :=
    Option.isSome_iff_exists.mp (m.accepted_of_limits limits inverted small)
  have carried := m.carried_of_accepted inverted.kept encoded small accepted
  have outcome := @feedExhaust_garbage pb m memory buf decoded encoded fits accepted chunks
    garbage clean short
  rw [empty] at outcome
  rcases outcome (by decide) cut with ⟨arrives, yields⟩ | ⟨lost, fails⟩
  · exact iff_of_true ⟨decoded, yields, carried⟩ arrives
  · refine iff_of_false ?_ (Bool.eq_false_iff.mp lost)
    rintro ⟨packet, yields, _⟩
    exact fails packet yields

theorem resynchronises_iff_magicArrives_sampleHeartbeat :
    ∃ packet, (feedExhaust (decoder Wire.wireProtobuf fun _ => (.request, 0)) Buffer.empty
        [[0, 0], [0] ++ sampleHeartbeat.encode Wire.wireProtobuf]).1 =
          [(sampleHeartbeat.encode Wire.wireProtobuf, packet)] ∧
      sampleHeartbeat.Carried packet := by
  have clean : Clean [0, 0, 0] := by
    unfold Clean
    decide
  exact (resynchronises_iff_magicArrives Wire.wireProtobuf (fun _ => (.request, 0))
    sampleHeartbeat_limits trivial (by decide +kernel) (by decide) clean rfl rfl).mpr
      (by decide +kernel)

/-- Eighteen bytes of garbage and the first byte of the magic in one chunk: the packet is lost. -/
theorem split_magic_loses_packet :
    ¬ ∃ packet, (feedExhaust (decoder Wire.wireProtobuf fun _ => (.request, 0)) Buffer.empty
      [List.replicate 18 0 ++ [0x52], (sampleHeartbeat.encode Wire.wireProtobuf).drop 1]).1 =
        [(sampleHeartbeat.encode Wire.wireProtobuf, packet)] := by
  have clean : Clean (List.replicate 18 0) := by
    unfold Clean
    decide
  have encoded : sampleHeartbeat.body Wire.wireProtobuf ≠ [] :=
    Message.body_of_limits sampleHeartbeat_limits trivial
  have fits : (sampleHeartbeat.encode Wire.wireProtobuf).length ≤ kMaxBufferSize := by
    decide +kernel
  obtain ⟨decoded, accepted⟩ := Option.isSome_iff_exists.mp
    (Message.accepted_of_limits sampleHeartbeat_limits trivial (small_of_fits encoded fits))
  have outcome := @feedExhaust_garbage Wire.wireProtobuf sampleHeartbeat (fun _ => (.request, 0))
    Buffer.empty decoded encoded fits accepted
    [List.replicate 18 0 ++ [0x52], (sampleHeartbeat.encode Wire.wireProtobuf).drop 1]
    (List.replicate 18 0) clean (by decide) (by decide) (by decide +kernel)
  rintro ⟨packet, yields⟩
  have fails := (outcome.resolve_left fun arrives => absurd arrives.1 (by decide +kernel)).2
  exact fails packet yields

end Chunks

end Packet

end RpcFramework.Codec
