import RpcFramework.Codec.ByteView

/-!
# Complete frames

The header checks of the decoder single out the buffered bytes that start with
a complete frame.  On these a call settles the frame, accepted or refused, and
leaves what follows it; on all other bytes it fails.  Both depend on the bytes
of the frame only, and not on the packet that is decoded into.
-/

namespace RpcFramework.Codec

/-- The bytes pass the header checks and hold the whole frame. -/
structure CompleteFrame (bytes : Bytes) : Prop where
  header : kFixedHeaderSize ≤ bytes.length
  fits : bytes.length ≤ kMaxBufferSize
  magic : checkMagic (decodeU32 (load bytes 0 4)) = true
  version : byteAt bytes 4 = kVersion
  bodyLen : declaredLen bytes ≤ kMaxBodyLen
  complete : totalLen bytes ≤ bytes.length

/-- The checksum and the body of a complete frame. -/
def frameOutcome (pb : Protobuf) (bytes : Bytes) (packet : DecodedPacket) :
    Bool × DecodedPacket :=
  if crc32 bytes (kFixedHeaderSize + declaredLen bytes) ≠
      decodeU32 (load bytes (kFixedHeaderSize + declaredLen bytes) 4) then (false, packet)
  else
    match decodeBody pb (byteAt bytes 5) (bytes.drop kFixedHeaderSize)
        (declaredLen bytes) packet with
    | none => (false, packet)
    | some (false, packet) => (false, packet)
    | some (true, packet) => (true, { packet with reqId := decodeU64 (load bytes 10 8) })

/-- What a failed call on an incomplete frame leaves: nothing, everything, or
the bytes from the next magic on. -/
inductive Leftover (bytes : Bytes) : Bytes → Prop
  | nothing : Leftover bytes []
  | everything (incomplete : bytes.length < kFixedHeaderSize ∨ bytes.length < totalLen bytes) :
      Leftover bytes bytes
  | magicAt (i : Nat) (header : kFixedHeaderSize ≤ bytes.length)
      (fits : bytes.length ≤ kMaxBufferSize)
      (other : checkMagic (decodeU32 (load bytes 0 4)) = false)
      (found : scanMagic bytes (min bytes.length kMaxScanBytes) = some i) :
      Leftover bytes (bytes.drop i)

section Calls

variable (pb : Protobuf) {bytes : Bytes} (packet : DecodedPacket)

theorem decodeBytes_complete (frame : CompleteFrame bytes) :
    decodeBytes pb bytes packet =
      ((frameOutcome pb bytes packet).1, bytes.drop (totalLen bytes),
        (frameOutcome pb bytes packet).2) := by
  unfold decodeBytes frameOutcome
  rw [if_neg (Nat.not_lt.mpr frame.header), if_neg (Nat.not_lt.mpr frame.fits), frame.magic,
    if_neg (by decide), if_neg (not_not_intro frame.version),
    if_neg (Nat.not_lt.mpr frame.bodyLen), if_neg (Nat.not_lt.mpr frame.complete)]
  split
  · rfl
  · generalize decodeBody pb _ _ _ packet = outcome
    rcases outcome with _ | ⟨_ | _, after⟩
    · rfl
    · rfl
    · rfl

theorem decodeBytes_incomplete (frame : ¬ CompleteFrame bytes) :
    ∃ rest, decodeBytes pb bytes packet = (false, rest, packet) ∧ Leftover bytes rest := by
  unfold decodeBytes
  by_cases short : bytes.length < kFixedHeaderSize
  · exact ⟨bytes, if_pos short, .everything (Or.inl short)⟩
  rw [if_neg short]
  by_cases long : bytes.length > kMaxBufferSize
  · exact ⟨[], if_pos long, .nothing⟩
  rw [if_neg long]
  cases magic : checkMagic (decodeU32 (load bytes 0 4)) with
  | false =>
      rw [if_pos (by rfl)]
      cases found : scanMagic bytes (min bytes.length kMaxScanBytes) with
      | none => exact ⟨[], rfl, .nothing⟩
      | some i =>
          exact ⟨bytes.drop i, rfl,
            .magicAt i (Nat.le_of_not_lt short) (Nat.le_of_not_lt long) magic found⟩
  | true =>
      rw [if_neg (by decide)]
      by_cases version : byteAt bytes 4 ≠ kVersion
      · exact ⟨[], if_pos version, .nothing⟩
      rw [if_neg version]
      by_cases big : declaredLen bytes > kMaxBodyLen
      · exact ⟨[], if_pos big, .nothing⟩
      rw [if_neg big]
      by_cases missing : bytes.length < totalLen bytes
      · exact ⟨bytes, if_pos missing, .everything (Or.inr missing)⟩
      · exact absurd ⟨Nat.le_of_not_lt short, Nat.le_of_not_lt long, magic,
          not_not.mp version, Nat.le_of_not_lt big, Nat.le_of_not_lt missing⟩ frame

end Calls

/-! ## Bytes behind the frame -/

section Behind

variable {bytes : Bytes} (rest : Bytes)

theorem declaredLen_append (header : kFixedHeaderSize ≤ bytes.length) :
    declaredLen (bytes ++ rest) = declaredLen bytes := by
  have within : 6 + 4 ≤ bytes.length := Nat.le_trans (by decide) header
  rw [declaredLen, declaredLen, load_append within]

theorem totalLen_append (header : kFixedHeaderSize ≤ bytes.length) :
    totalLen (bytes ++ rest) = totalLen bytes := by
  rw [totalLen, totalLen, declaredLen_append rest header]

theorem header_le_totalLen : kFixedHeaderSize ≤ totalLen bytes := by
  rw [totalLen, Nat.add_assoc]
  exact Nat.le_add_right _ _

theorem CompleteFrame.length_drop_lt (frame : CompleteFrame bytes) :
    (bytes.drop (totalLen bytes)).length < bytes.length := by
  have positive : 0 < totalLen bytes := Nat.lt_of_lt_of_le (by decide) header_le_totalLen
  rw [List.length_drop]
  exact Nat.sub_lt (Nat.lt_of_lt_of_le positive frame.complete) positive

/-- A frame stays complete when bytes are added behind it, and when all bytes
behind it are taken away. -/
theorem completeFrame_append_iff (header : kFixedHeaderSize ≤ bytes.length)
    (complete : totalLen bytes ≤ bytes.length)
    (fits : (bytes ++ rest).length ≤ kMaxBufferSize) :
    CompleteFrame (bytes ++ rest) ↔ CompleteFrame bytes := by
  have magic : load (bytes ++ rest) 0 4 = load bytes 0 4 :=
    load_append (Nat.le_trans (by decide) header) rest
  have version : byteAt (bytes ++ rest) 4 = byteAt bytes 4 :=
    byteAt_append (Nat.lt_of_lt_of_le (by decide) header) rest
  have longer : bytes.length ≤ (bytes ++ rest).length := by
    rw [List.length_append]
    exact Nat.le_add_right _ _
  constructor
  · intro frame
    refine ⟨header, Nat.le_trans longer fits, ?_, ?_, ?_, complete⟩
    · exact magic ▸ frame.magic
    · exact version ▸ frame.version
    · exact declaredLen_append rest header ▸ frame.bodyLen
  · intro frame
    refine ⟨Nat.le_trans header longer, fits, ?_, ?_, ?_, ?_⟩
    · rw [magic]
      exact frame.magic
    · rw [version]
      exact frame.version
    · rw [declaredLen_append rest header]
      exact frame.bodyLen
    · rw [totalLen_append rest header]
      exact Nat.le_trans complete longer

theorem frameOutcome_append (pb : Protobuf) (packet : DecodedPacket)
    (header : kFixedHeaderSize ≤ bytes.length) (complete : totalLen bytes ≤ bytes.length) :
    frameOutcome pb (bytes ++ rest) packet = frameOutcome pb bytes packet := by
  have checksum : kFixedHeaderSize + declaredLen bytes + 4 ≤ bytes.length := complete
  have covered : kFixedHeaderSize + declaredLen bytes ≤ bytes.length :=
    Nat.le_trans (Nat.le_add_right _ 4) checksum
  have body : declaredLen bytes ≤ (bytes.drop kFixedHeaderSize).length := by
    rw [List.length_drop]
    exact Nat.le_sub_of_add_le' covered
  unfold frameOutcome
  rw [declaredLen_append rest header, crc32_append_of_le covered, load_append checksum,
    byteAt_append (Nat.lt_of_lt_of_le (by decide) header),
    List.drop_append_of_le_length header, decodeBody_append pb _ body,
    load_append (Nat.le_trans (by decide) header)]

end Behind

/-! ## What a body decoder does to any packet -/

section Fills

variable (pb : Protobuf) (data : Bytes) (bodyLen : Nat)

theorem decodeRequestBody_fills :
    ∃ (accepted : Bool) (service method : Option Bytes) (req : Option RpcRequest),
      (∀ packet, decodeRequestBody pb data bodyLen packet =
        (accepted, { packet with
          serviceName := service.getD packet.serviceName
          methodName := method.getD packet.methodName
          rpcRequest := req.getD packet.rpcRequest })) ∧
      (accepted = true → ∃ first second payload parsed,
        readString data 0 bodyLen = some first ∧ readString data first.2 bodyLen = some second ∧
        readPayload data second.2 bodyLen = some payload ∧
        pb.parseRequest payload = (true, parsed) ∧
        service = some first.1 ∧ method = some second.1 ∧ req = some parsed) := by
  unfold decodeRequestBody
  cases readString data 0 bodyLen with
  | none => exact ⟨false, none, none, none, fun _ => rfl, nofun⟩
  | some first =>
      dsimp only
      cases second : readString data first.2 bodyLen with
      | none => exact ⟨false, some first.1, none, none, fun _ => rfl, nofun⟩
      | some method =>
          dsimp only
          cases last : readPayload data method.2 bodyLen with
          | none => exact ⟨false, some first.1, some method.1, none, fun _ => rfl, nofun⟩
          | some payload =>
              refine ⟨_, some first.1, some method.1, some (pb.parseRequest payload).2,
                fun _ => rfl, fun accepted => ?_⟩
              exact ⟨first, method, payload, _, rfl, second, last, Prod.ext accepted rfl, rfl, rfl,
                rfl⟩

theorem decodeResponseBody_fills :
    ∃ (accepted : Bool) (resp : Option RpcResponse) (status : Option Status),
      (∀ packet, decodeResponseBody pb data bodyLen packet =
        (accepted, { packet with
          rpcResponse := resp.getD packet.rpcResponse
          networkStatus := status.getD packet.networkStatus })) ∧
      (accepted = true → ∃ payload parsed, 1 ≤ bodyLen ∧ readPayload data 1 bodyLen = some payload ∧
        pb.parseResponse payload = (true, parsed) ∧
        resp = some parsed ∧ status = some (statusOfByte (byteAt data 0))) := by
  unfold decodeResponseBody
  split
  · exact ⟨false, none, none, fun _ => rfl, nofun⟩
  · next room =>
      cases readPayload data 1 bodyLen with
      | none => exact ⟨false, none, none, fun _ => rfl, nofun⟩
      | some payload =>
          dsimp only
          split
          · next parsed =>
              exact ⟨true, some _, some _, fun _ => rfl, fun _ => ⟨payload, _, Nat.le_of_not_lt room,
                rfl, Prod.ext parsed rfl, rfl, rfl⟩⟩
          · exact ⟨false, some _, none, fun _ => rfl, nofun⟩

theorem decodeHeartbeatBody_fills :
    (∀ packet, decodeHeartbeatBody data bodyLen packet = (false, packet)) ∨
      ∃ first second, readString data 0 bodyLen = some first ∧
        readString data first.2 bodyLen = some second ∧ second.2 + 8 + 2 ≤ bodyLen ∧
        ∀ packet, decodeHeartbeatBody data bodyLen packet =
          (let extras := readExtras data bodyLen (decodeU16 (load data (second.2 + 8) 2)).toNat
              (second.2 + 8 + 2) packet.heartbeat.extra
            if extras.1 ≠ some bodyLen then
              (false, { packet with heartbeat := { packet.heartbeat with extra := extras.2 } })
            else
              (true, { packet with heartbeat :=
                ⟨first.1, second.1, (decodeU64 (load data second.2 8)).toInt64, extras.2⟩ })) := by
  unfold decodeHeartbeatBody
  cases readString data 0 bodyLen with
  | none => exact Or.inl fun _ => rfl
  | some first =>
      dsimp only
      cases second : readString data first.2 bodyLen with
      | none => exact Or.inl fun _ => rfl
      | some node =>
          dsimp only
          split
          · exact Or.inl fun _ => rfl
          split
          · exact Or.inl fun _ => rfl
          · next counted =>
              refine Or.inr ⟨first, node, rfl, second, Nat.le_of_not_lt counted, fun packet => ?_⟩
              rcases readExtras data bodyLen _ _ packet.heartbeat.extra with ⟨_ | next, extra⟩
              · rfl
              · simp only [ne_eq, Option.some.injEq]

end Fills

/-! ## Acceptance does not depend on the packet -/

theorem readExtras_position (data : Bytes) (bodyLen count pos : Nat) (first second : StringMap) :
    (readExtras data bodyLen count pos first).1 = (readExtras data bodyLen count pos second).1 := by
  induction count generalizing pos first second with
  | zero => rfl
  | succ count ih =>
      unfold readExtras
      cases readString data pos bodyLen with
      | none => rfl
      | some key =>
          dsimp only
          cases readString data key.2 bodyLen with
          | none => rfl
          | some value => exact ih value.2 _ _

theorem frameOutcome_accepts (pb : Protobuf) (bytes : Bytes) (first second : DecodedPacket) :
    (frameOutcome pb bytes first).1 = (frameOutcome pb bytes second).1 := by
  have bodies : ∀ kind data bodyLen,
      (decodeBody pb kind data bodyLen first).map Prod.fst =
        (decodeBody pb kind data bodyLen second).map Prod.fst := by
    intro kind data bodyLen
    unfold decodeBody
    split
    · obtain ⟨_, _, _, _, filled, _⟩ := decodeRequestBody_fills pb data bodyLen
      rw [filled, filled]
      rfl
    split
    · obtain ⟨_, _, _, filled, _⟩ := decodeResponseBody_fills pb data bodyLen
      rw [filled, filled]
      rfl
    split
    · rcases decodeHeartbeatBody_fills data bodyLen with unread | ⟨_, _, _, _, _, filled⟩
      · rw [unread, unread]
        rfl
      · dsimp only at filled
        rw [filled, filled, readExtras_position data bodyLen _ _ first.heartbeat.extra
          second.heartbeat.extra]
        split <;> rfl
    · rfl
  unfold frameOutcome
  split
  · rfl
  · have same := bodies (byteAt bytes 5) (bytes.drop kFixedHeaderSize) (declaredLen bytes)
    generalize decodeBody pb _ _ _ first = one at same
    generalize decodeBody pb _ _ _ second = other at same
    rcases one with _ | ⟨_ | _, after⟩ <;> rcases other with _ | ⟨_ | _, later⟩ <;>
      first | rfl | cases same

end RpcFramework.Codec
