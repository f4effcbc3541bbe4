import RpcFramework.Codec.Received

/-!
# The receive loop of the message callbacks

`RpcServer`, `RpcAsyncClient`, `InlineSyncClient` and `InlinePipelineClient`
read their input with the same loop,

    DecodedPacket packet;
    while (Codec::decode(*buf, packet)) { ... }

whose body handles the packet and does not touch the buffer or the packet.  The
body is a parameter here.  A call that skips bytes fails just as a call that
needs more bytes does, so the loop also ends after a skipped stretch.
-/

namespace RpcFramework.Codec

open Framing

variable {World : Type}

/-- The loop condition and the body, on the buffer, the packet and the rest of the program. -/
def receiver (pb : Protobuf) (handle : DecodedPacket → World → World) :
    Decoder (Buffer × DecodedPacket × World) UInt8 DecodedPacket where
  unread state := state.1.readable
  append state chunk := (state.1.append chunk, state.2)
  decode state :=
    let called := decode pb state.1 state.2.1
    if called.1 then (some called.2.2, called.2.1, called.2.2, handle called.2.2 state.2.2)
    else (none, called.2.1, called.2.2, state.2.2)
  unread_append state chunk := state.1.readable_append chunk
  decode_le state := by
    have smaller := decodeBytes_le pb state.1.readable state.2.1
    rw [decode_view] at smaller
    dsimp only
    split
    · exact smaller
    · exact smaller
  decode_shrinks state message next called := by
    have view := decode_view pb state.1 state.2.1
    generalize decode pb state.1 state.2.1 = outcome at called view
    obtain ⟨accepted, after, filled⟩ := outcome
    cases accepted with
    | false => cases called
    | true =>
        cases called
        obtain ⟨frame, left⟩ := decodeBytes_true view
        exact left ▸ frame.length_drop_lt

/-- A message callback: the buffer and the rest of the program after the loop. -/
def onMessage (pb : Protobuf) (handle : DecodedPacket → World → World) (buf : Buffer)
    (packet : DecodedPacket) (world : World) : Buffer × World :=
  let final := (drain (receiver pb handle) (buf, packet, world)).2
  (final.1, final.2.2)

/-! ## Acceptable and skipped bytes -/

/-- The bytes start with a complete packet that the decoder accepts. -/
def Accepts (pb : Protobuf) (bytes : Bytes) : Prop :=
  (decodeBytes pb bytes (.fresh .request 0)).1 = true

instance (pb : Protobuf) (bytes : Bytes) : Decidable (Accepts pb bytes) :=
  inferInstanceAs (Decidable (_ = true))

/-- The bytes are exactly one packet that the decoder accepts. -/
def IsPacket (pb : Protobuf) (bytes : Bytes) : Prop :=
  Accepts pb bytes ∧ totalLen bytes = bytes.length

/-- Bytes that a call skips: a complete frame that is refused because of its
checksum, type or body, or what precedes the next magic. -/
inductive Skipped (pb : Protobuf) (bytes : Bytes) : Bytes → Prop
  | frame (complete : CompleteFrame bytes) (refused : ¬ Accepts pb bytes) :
      Skipped pb bytes (bytes.drop (totalLen bytes))
  | garbage (i : Nat) (header : kFixedHeaderSize ≤ bytes.length)
      (fits : bytes.length ≤ kMaxBufferSize)
      (other : checkMagic (decodeU32 (load bytes 0 4)) = false)
      (found : scanMagic bytes (min bytes.length kMaxScanBytes) = some i) :
      Skipped pb bytes (bytes.drop i)

/-- Packets that are accepted, a skipped stretch, and an acceptable packet behind it. -/
inductive HeldBack (pb : Protobuf) : Bytes → Prop
  | skipped {bytes rest : Bytes} (stretch : Skipped pb bytes rest)
      (behind : Accepts pb rest) : HeldBack pb bytes
  | packet {bytes rest : Bytes} (first : IsPacket pb bytes)
      (fits : (bytes ++ rest).length ≤ kMaxBufferSize) (later : HeldBack pb rest) :
      HeldBack pb (bytes ++ rest)

section Calls

variable {pb : Protobuf} {bytes rest : Bytes}

/-- What is accepted does not depend on the packet that is decoded into. -/
theorem accepts_iff (packet : DecodedPacket) :
    Accepts pb bytes ↔ CompleteFrame bytes ∧ (frameOutcome pb bytes packet).1 = true := by
  unfold Accepts
  by_cases frame : CompleteFrame bytes
  · rw [decodeBytes_complete pb _ frame, frameOutcome_accepts pb bytes _ packet]
    exact (and_iff_right frame).symm
  · obtain ⟨left, called, _⟩ := decodeBytes_incomplete pb (.fresh .request 0) frame
    rw [called]
    constructor
    · intro impossible
      cases impossible
    · intro accepted
      exact absurd accepted.1 frame

theorem Accepts.completeFrame (accepted : Accepts pb bytes) : CompleteFrame bytes :=
  ((accepts_iff (.fresh .request 0)).mp accepted).1

theorem accepts_append_iff (header : kFixedHeaderSize ≤ bytes.length)
    (complete : totalLen bytes ≤ bytes.length)
    (fits : (bytes ++ rest).length ≤ kMaxBufferSize) :
    Accepts pb (bytes ++ rest) ↔ Accepts pb bytes := by
  rw [accepts_iff (.fresh .request 0), accepts_iff (.fresh .request 0),
    completeFrame_append_iff rest header complete fits,
    frameOutcome_append rest pb _ header complete]

theorem IsPacket.header (packet : IsPacket pb bytes) : kFixedHeaderSize ≤ bytes.length :=
  packet.1.completeFrame.header

/-- Acceptable bytes split into a packet and what follows it. -/
theorem Accepts.isPacket_take (accepted : Accepts pb bytes) :
    IsPacket pb (bytes.take (totalLen bytes)) := by
  have frame := accepted.completeFrame
  have size : (bytes.take (totalLen bytes)).length = totalLen bytes :=
    List.length_take_of_le frame.complete
  have header : kFixedHeaderSize ≤ (bytes.take (totalLen bytes)).length := by
    rw [size]
    exact header_le_totalLen
  have total : totalLen (bytes.take (totalLen bytes)) = totalLen bytes := by
    rw [← totalLen_append (bytes.drop (totalLen bytes)) header, List.take_append_drop]
  have whole : Accepts pb (bytes.take (totalLen bytes) ++ bytes.drop (totalLen bytes)) := by
    rw [List.take_append_drop]
    exact accepted
  refine ⟨(accepts_append_iff header ?_ ?_).mp whole, total.trans size.symm⟩
  · exact Nat.le_of_eq (total.trans size.symm)
  · rw [List.take_append_drop]
    exact frame.fits

theorem IsPacket.eq_take (packet : IsPacket pb bytes) :
    bytes = (bytes ++ rest).take (totalLen (bytes ++ rest)) ∧
      rest = (bytes ++ rest).drop (totalLen (bytes ++ rest)) := by
  rw [totalLen_append rest packet.header, packet.2]
  exact ⟨List.take_left.symm, List.drop_left.symm⟩

/-- A failed call that leaves an acceptable packet has skipped something. -/
theorem skipped_of_call {packet after : DecodedPacket}
    (called : decodeBytes pb bytes packet = (false, rest, after)) (behind : Accepts pb rest) :
    Skipped pb bytes rest := by
  by_cases frame : CompleteFrame bytes
  · have refused : ¬ Accepts pb bytes := by
      rw [decodeBytes_complete pb packet frame] at called
      intro accepted
      have outcome := ((accepts_iff packet).mp accepted).2
      rw [(Prod.mk.inj called).1] at outcome
      cases outcome
    rw [decodeBytes_complete pb packet frame] at called
    rw [← (Prod.mk.inj (Prod.mk.inj called).2).1]
    exact .frame frame refused
  · obtain ⟨left, calledAlso, leftover⟩ := decodeBytes_incomplete pb packet frame
    cases called.symm.trans calledAlso
    cases leftover with
    | nothing => exact absurd behind.completeFrame.header (by decide)
    | everything => exact absurd behind.completeFrame frame
    | magicAt i header fits other found => exact .garbage i header fits other found

theorem Skipped.not_accepts (stretch : Skipped pb bytes rest) : ¬ Accepts pb bytes := by
  cases stretch with
  | frame complete refused => exact refused
  | garbage i header fits other found =>
      intro accepted
      exact absurd (other.symm.trans accepted.completeFrame.magic) (by decide)

theorem Skipped.call (stretch : Skipped pb bytes rest) (packet : DecodedPacket) :
    ∃ after, decodeBytes pb bytes packet = (false, rest, after) := by
  have refused := stretch.not_accepts
  cases stretch with
  | frame complete =>
      have outcome : (frameOutcome pb bytes packet).1 = false := by
        rw [← Bool.not_eq_true]
        exact fun accepted => refused ((accepts_iff packet).mpr ⟨complete, accepted⟩)
      exact ⟨_, (decodeBytes_complete pb packet complete).trans (by rw [outcome])⟩
  | garbage i header fits other found =>
      refine ⟨packet, ?_⟩
      unfold decodeBytes
      rw [if_neg (Nat.not_lt.mpr header), if_neg (Nat.not_lt.mpr fits), other, found]
      rfl

/-- An accepted packet in front does not matter. -/
theorem heldBack_iff_drop (accepted : Accepts pb bytes) :
    HeldBack pb bytes ↔ HeldBack pb (bytes.drop (totalLen bytes)) := by
  constructor
  · intro held
    cases held with
    | skipped stretch behind => exact absurd accepted stretch.not_accepts
    | packet first fits later =>
        rw [← first.eq_take.2]
        exact later
  · intro later
    have held := HeldBack.packet accepted.isPacket_take
      (by rw [List.take_append_drop]; exact accepted.completeFrame.fits) later
    rw [List.take_append_drop] at held
    exact held

end Calls

section Loop

variable {pb : Protobuf} {handle : DecodedPacket → World → World}
variable {state next : Buffer × DecodedPacket × World}

theorem receiver_none (called : (receiver pb handle).decode state = (none, next)) :
    decodeBytes pb state.1.readable state.2.1 = (false, next.1.readable, next.2.1) := by
  rw [decode_view]
  change (if (decode pb state.1 state.2.1).1 then _ else _) = _ at called
  cases accepted : (decode pb state.1 state.2.1).1 with
  | true =>
      rw [accepted] at called
      cases called
  | false =>
      rw [accepted] at called
      cases called
      rfl

theorem receiver_some {message : DecodedPacket}
    (called : (receiver pb handle).decode state = (some message, next)) :
    decodeBytes pb state.1.readable state.2.1 = (true, next.1.readable, message) := by
  rw [decode_view]
  change (if (decode pb state.1 state.2.1).1 then _ else _) = _ at called
  cases accepted : (decode pb state.1 state.2.1).1 with
  | true =>
      rw [accepted] at called
      cases called
      rfl
  | false =>
      rw [accepted] at called
      cases called

theorem receiver_of_failed {buf : Buffer} {packet after : DecodedPacket} {rest : Bytes}
    (failed : decodeBytes pb buf.readable packet = (false, rest, after))
    (handle : DecodedPacket → World → World) (world : World) :
    (receiver pb handle).decode (buf, packet, world) =
      (none, (decode pb buf packet).2.1, (decode pb buf packet).2.2, world) := by
  rw [decode_view] at failed
  change (if (decode pb buf packet).1 then _ else _) = _
  rw [(Prod.mk.inj failed).1]
  rfl

theorem receiver_of_accepted {buf : Buffer} {packet filled : DecodedPacket} {rest : Bytes}
    (accepted : decodeBytes pb buf.readable packet = (true, rest, filled))
    (handle : DecodedPacket → World → World) (world : World) :
    (receiver pb handle).decode (buf, packet, world) =
      (some filled, (decode pb buf packet).2.1, filled, handle filled world) := by
  rw [decode_view] at accepted
  obtain ⟨settled, outcome⟩ := Prod.mk.inj accepted
  cases outcome
  change (if (decode pb buf packet).1 then _ else _) = _
  rw [settled]
  rfl

/-- The loop ends at a call that fails. -/
theorem onMessage_of_failed {buf : Buffer} {packet after : DecodedPacket} {rest : Bytes}
    (failed : decodeBytes pb buf.readable packet = (false, rest, after))
    (handle : DecodedPacket → World → World) (world : World) :
    (onMessage pb handle buf packet world).1.readable = rest := by
  rw [onMessage, drain_of_none (receiver_of_failed failed handle world)]
  rw [decode_view] at failed
  exact (Prod.mk.inj (Prod.mk.inj failed).2).1

theorem onMessage_world_of_failed {buf : Buffer} {packet after : DecodedPacket} {rest : Bytes}
    (failed : decodeBytes pb buf.readable packet = (false, rest, after))
    (handle : DecodedPacket → World → World) (world : World) :
    (onMessage pb handle buf packet world).2 = world := by
  rw [onMessage, drain_of_none (receiver_of_failed failed handle world)]

/-- What the loop leaves is acceptable exactly when the input held an
acceptable packet back behind a skipped stretch. -/
theorem leftover_accepts_iff (pb : Protobuf) (handle : DecodedPacket → World → World)
    (state : Buffer × DecodedPacket × World) :
    Accepts pb (drain (receiver pb handle) state).2.1.readable ↔
      HeldBack pb state.1.readable := by
  induction state using drain_induction (receiver pb handle) with
  | ends state next called =>
      rw [drain_of_none called]
      have failed := receiver_none called
      constructor
      · intro behind
        exact .skipped (skipped_of_call failed behind) behind
      · intro held
        generalize input : state.1.readable = bytes at failed held
        cases held with
        | skipped stretch behind =>
            obtain ⟨after, calledAlso⟩ := stretch.call state.2.1
            cases failed.symm.trans calledAlso
            exact behind
        | @packet bytes rest first fits later =>
            have accepted : Accepts pb (bytes ++ rest) :=
              (accepts_append_iff first.header (Nat.le_of_eq first.2) fits).mpr first.1
            have outcome := decodeBytes_complete pb state.2.1 accepted.completeFrame
            rw [((accepts_iff state.2.1).mp accepted).2] at outcome
            cases failed.symm.trans outcome
  | goes state message next called ih =>
      rw [drain_of_some called]
      have succeeded := receiver_some called
      obtain ⟨frame, left⟩ := decodeBytes_true succeeded
      have accepted : Accepts pb state.1.readable := by
        apply (accepts_iff state.2.1).mpr
        refine ⟨frame, ?_⟩
        rw [decodeBytes_complete pb state.2.1 frame] at succeeded
        exact (Prod.mk.inj succeeded).1
      rw [heldBack_iff_drop accepted, ← left]
      exact ih

end Loop

/-! ## Buffered packets -/

/-- The loop goes on behind an accepted packet. -/
theorem onMessage_of_accepted {pb : Protobuf} {buf : Buffer} {packet filled : DecodedPacket}
    {rest : Bytes} (accepted : decodeBytes pb buf.readable packet = (true, rest, filled)) :
    ∃ next : Buffer, next.readable = rest ∧
      ∀ (handle : DecodedPacket → World → World) world,
        onMessage pb handle buf packet world =
          onMessage pb handle next filled (handle filled world) := by
  refine ⟨(decode pb buf packet).2.1, ?_, ?_⟩
  · rw [decode_view] at accepted
    exact (Prod.mk.inj (Prod.mk.inj accepted).2).1
  · intro handle world
    rw [onMessage, drain_of_some (receiver_of_accepted accepted handle world)]
    rfl

/-- The loop handles the buffered packets one by one, in order, and uses them up. -/
theorem onMessage_handles {pb : Protobuf} (handle : DecodedPacket → World → World)
    {msgs : List Message} (limits : ∀ m ∈ msgs, m.WithinLimits)
    (inverted : ∀ m ∈ msgs, m.Inverted pb)
    (small : ∀ m ∈ msgs, (m.body pb).length ≤ kMaxBodyLen) {buf : Buffer}
    (buffered : buf.readable = msgs.flatMap (Message.encode pb))
    (fits : buf.readableBytes ≤ kMaxBufferSize) (packet : DecodedPacket) (world : World) :
    ∃ packets, List.Forall₂ Message.ShownBy msgs packets ∧
      (onMessage pb handle buf packet world).2 =
        packets.foldl (fun world packet => handle packet world) world ∧
      (onMessage pb handle buf packet world).1.readable = [] := by
  induction msgs generalizing buf packet world with
  | nil =>
      have failed : decodeBytes pb buf.readable packet = (false, [], packet) := by
        rw [buffered]
        rfl
      refine ⟨[], .nil, ?_, onMessage_of_failed failed handle world⟩
      exact onMessage_world_of_failed failed handle world
  | cons m msgs ih =>
      have first : m ∈ m :: msgs := List.mem_cons_self ..
      have encoded := m.body_of_limits (limits m first) (inverted m first)
      rw [List.flatMap_cons, Message.encode_of_body encoded] at buffered
      rw [← buf.length_readable, buffered] at fits
      have called := decodeBytes_pack pb m.msgType m.reqId (small m first) fits packet
      obtain ⟨accepted, shown⟩ :=
        m.bodyOutcome_shown (limits m first) (inverted m first) (small m first) packet
      rw [accepted, ← buffered] at called
      obtain ⟨next, left, goesOn⟩ := @onMessage_of_accepted World _ _ _ _ _ called
      rw [goesOn handle world]
      have fitsLater : next.readableBytes ≤ kMaxBufferSize := by
        rw [← next.length_readable, left]
        rw [List.length_append] at fits
        exact Nat.le_trans (Nat.le_add_left _ _) fits
      obtain ⟨packets, shownLater, folded, used⟩ := ih
        (fun other member => limits other (List.mem_cons_of_mem _ member))
        (fun other member => inverted other (List.mem_cons_of_mem _ member))
        (fun other member => small other (List.mem_cons_of_mem _ member))
        left fitsLater _ (handle _ world)
      exact ⟨_ :: packets, .cons shown shownLater, folded, used⟩

/--
When a message callback ends, the buffer does not start with an acceptable
packet exactly when the input had no acceptable packet behind a skipped stretch.
-/
theorem onMessage_leaves_no_packet_iff (pb : Protobuf) (handle : DecodedPacket → World → World)
    (buf : Buffer) (packet : DecodedPacket) (world : World) :
    ¬ Accepts pb (onMessage pb handle buf packet world).1.readable ↔
      ¬ HeldBack pb buf.readable :=
  not_congr (leftover_accepts_iff pb handle (buf, packet, world))

/-- A heartbeat packet with a wrong checksum. -/
def corruptedHeartbeat : Bytes :=
  (pack .heartbeat 0 (encodeHeartbeatBody .cleared)).dropLast ++ [0]

/-- The packet of a request. -/
def bufferedRequest : Bytes := encodeRequest Wire.wireProtobuf ⟨[1, 2, 3], ∅⟩ 7 [0x45] [0x65]

theorem skipped_corruptedHeartbeat :
    Skipped Wire.wireProtobuf (corruptedHeartbeat ++ bufferedRequest) bufferedRequest := by
  have complete : CompleteFrame (corruptedHeartbeat ++ bufferedRequest) :=
    ⟨by decide +kernel, by decide +kernel, by decide +kernel, by decide +kernel,
      by decide +kernel, by decide +kernel⟩
  have refused : ¬ Accepts Wire.wireProtobuf (corruptedHeartbeat ++ bufferedRequest) := by
    decide +kernel
  have behind : (corruptedHeartbeat ++ bufferedRequest).drop
      (totalLen (corruptedHeartbeat ++ bufferedRequest)) = bufferedRequest := by
    decide +kernel
  have stretch := Skipped.frame complete refused
  rw [behind] at stretch
  exact stretch

/-- A request that is buffered behind the corrupted heartbeat is left in the buffer. -/
theorem onMessage_leaves_bufferedRequest :
    Accepts Wire.wireProtobuf
      (onMessage Wire.wireProtobuf (fun packet handled => packet :: handled)
        (Buffer.empty.append (corruptedHeartbeat ++ bufferedRequest)) (.fresh .request 0)
        []).1.readable := by
  obtain ⟨after, failed⟩ := skipped_corruptedHeartbeat.call (.fresh .request 0)
  have input : (Buffer.empty.append (corruptedHeartbeat ++ bufferedRequest)).readable =
      corruptedHeartbeat ++ bufferedRequest :=
    Buffer.readable_empty_append _
  rw [← input] at failed
  rw [onMessage_of_failed failed]
  decide +kernel

end RpcFramework.Codec
