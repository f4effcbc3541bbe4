import RpcFramework.Codec.Decode

/-!
# Decoding as a function of the readable bytes

The memory behind the readable region holds bytes of earlier packets.  No read
of the decoder reaches it: every reader below gives the same result with and
without bytes behind its bound.  `decodeBytes` is the decoder on a byte list,
and `decode` on a buffer acts on the readable region exactly as `decodeBytes`.
-/

namespace RpcFramework.Codec

/-! ## Readers ignore what follows their bound -/

theorem length_load {data : Bytes} {pos len : Nat} (within : pos + len ≤ data.length) :
    (load data pos len).length = len := by
  rw [load, List.length_take, List.length_drop]
  omega

theorem load_append {data : Bytes} {pos len : Nat} (within : pos + len ≤ data.length)
    (rest : Bytes) : load (data ++ rest) pos len = load data pos len := by
  rw [load, load, List.drop_append_of_le_length (by omega),
    List.take_append_of_le_length (by simp only [List.length_drop]; omega)]

theorem byteAt_append {data : Bytes} {pos : Nat} (within : pos < data.length)
    (rest : Bytes) : byteAt (data ++ rest) pos = byteAt data pos := by
  rw [byteAt, byteAt, List.getD_eq_getElem?_getD, List.getD_eq_getElem?_getD,
    List.getElem?_append_left within]

theorem crc32_append_of_le {data : Bytes} {len : Nat} (within : len ≤ data.length)
    (rest : Bytes) : crc32 (data ++ rest) len = crc32 data len := by
  rw [crc32, crc32, List.take_append_of_le_length within]

theorem readString_append {data : Bytes} {totalLen : Nat} (within : totalLen ≤ data.length)
    (pos : Nat) (rest : Bytes) :
    readString (data ++ rest) pos totalLen = readString data pos totalLen := by
  unfold readString
  split
  · rfl
  · next room =>
      rw [load_append (by omega)]
      dsimp only
      split
      · rfl
      · next space => rw [load_append (by omega)]

theorem readPayload_append {data : Bytes} {bodyLen : Nat} (within : bodyLen ≤ data.length)
    (pos : Nat) (rest : Bytes) :
    readPayload (data ++ rest) pos bodyLen = readPayload data pos bodyLen := by
  unfold readPayload
  split
  · rfl
  · next room =>
      rw [load_append (by omega)]
      dsimp only
      split
      · rfl
      · next space => rw [load_append (by omega)]

theorem readExtras_append {data : Bytes} {bodyLen : Nat} (within : bodyLen ≤ data.length)
    (rest : Bytes) (count pos : Nat) (extra : StringMap) :
    readExtras (data ++ rest) bodyLen count pos extra =
      readExtras data bodyLen count pos extra := by
  induction count generalizing pos extra with
  | zero => rfl
  | succ count ih =>
      simp only [readExtras, readString_append within, ih]

theorem decodeRequestBody_append (pb : Protobuf) {data : Bytes} {bodyLen : Nat}
    (within : bodyLen ≤ data.length) (rest : Bytes) (packet : DecodedPacket) :
    decodeRequestBody pb (data ++ rest) bodyLen packet =
      decodeRequestBody pb data bodyLen packet := by
  simp only [decodeRequestBody, readString_append within, readPayload_append within]

theorem decodeResponseBody_append (pb : Protobuf) {data : Bytes} {bodyLen : Nat}
    (within : bodyLen ≤ data.length) (rest : Bytes) (packet : DecodedPacket) :
    decodeResponseBody pb (data ++ rest) bodyLen packet =
      decodeResponseBody pb data bodyLen packet := by
  unfold decodeResponseBody
  split
  · rfl
  · next some_byte => rw [readPayload_append within, byteAt_append (by omega)]

theorem decodeHeartbeatBody_append {data : Bytes} {bodyLen : Nat}
    (within : bodyLen ≤ data.length) (rest : Bytes) (packet : DecodedPacket) :
    decodeHeartbeatBody (data ++ rest) bodyLen packet =
      decodeHeartbeatBody data bodyLen packet := by
  unfold decodeHeartbeatBody
  rw [readString_append within]
  cases readString data 0 bodyLen with
  | none => rfl
  | some first =>
      simp only [readString_append within]
      cases readString data first.2 bodyLen with
      | none => rfl
      | some second =>
          dsimp only
          split
          · rfl
          · next stamp =>
              have stampAt := load_append (Nat.le_trans (Nat.le_of_not_lt stamp) within) rest
              rw [stampAt]
              split
              · rfl
              · next counted =>
                  have countAt := load_append (Nat.le_trans (Nat.le_of_not_lt counted) within) rest
                  rw [countAt, readExtras_append within]

theorem decodeBody_append (pb : Protobuf) (msgType : UInt8) {data : Bytes} {bodyLen : Nat}
    (within : bodyLen ≤ data.length) (rest : Bytes) (packet : DecodedPacket) :
    decodeBody pb msgType (data ++ rest) bodyLen packet =
      decodeBody pb msgType data bodyLen packet := by
  simp only [decodeBody, decodeRequestBody_append pb within,
    decodeResponseBody_append pb within, decodeHeartbeatBody_append within]

theorem scanMagic_append {data : Bytes} {scanLimit : Nat} (within : scanLimit ≤ data.length)
    (rest : Bytes) : scanMagic (data ++ rest) scanLimit = scanMagic data scanLimit := by
  have same : ∀ i ∈ List.range' 1 (scanLimit - 4),
      load (data ++ rest) i 4 = load data i 4 := by
    intro i member
    have bound := List.mem_range'_1.mp member
    exact load_append (by omega) rest
  unfold scanMagic
  generalize List.range' 1 (scanLimit - 4) = offsets at same ⊢
  induction offsets with
  | nil => rfl
  | cons i offsets ih =>
      rw [List.find?_cons, List.find?_cons, same i (List.mem_cons_self ..),
        ih (fun j member => same j (List.mem_cons_of_mem _ member))]

/-! ## The decoder on a byte list -/

/-- The length that a header declares for its body. -/
def declaredLen (bytes : Bytes) : Nat := (decodeU32 (load bytes 6 4)).toNat

/-- The length of the whole packet that a header announces. -/
def totalLen (bytes : Bytes) : Nat := kFixedHeaderSize + declaredLen bytes + kChecksumSize

/-- `decode` with the readable bytes in place of the buffer. -/
def decodeBytes (pb : Protobuf) (bytes : Bytes) (packet : DecodedPacket) :
    Bool × Bytes × DecodedPacket :=
  if bytes.length < kFixedHeaderSize then (false, bytes, packet)
  else if bytes.length > kMaxBufferSize then (false, [], packet)
  else if !checkMagic (decodeU32 (load bytes 0 4)) then
    match scanMagic bytes (min bytes.length kMaxScanBytes) with
    | some i => (false, bytes.drop i, packet)
    | none => (false, [], packet)
  else if byteAt bytes 4 ≠ kVersion then (false, [], packet)
  else if declaredLen bytes > kMaxBodyLen then (false, [], packet)
  else if bytes.length < totalLen bytes then (false, bytes, packet)
  else if crc32 bytes (kFixedHeaderSize + declaredLen bytes) ≠
      decodeU32 (load bytes (kFixedHeaderSize + declaredLen bytes) 4) then
    (false, bytes.drop (totalLen bytes), packet)
  else
    match decodeBody pb (byteAt bytes 5) (bytes.drop kFixedHeaderSize)
        (declaredLen bytes) packet with
    | none => (false, bytes.drop (totalLen bytes), packet)
    | some (false, packet) => (false, bytes.drop (totalLen bytes), packet)
    | some (true, packet) =>
        (true, bytes.drop (totalLen bytes),
          { packet with reqId := decodeU64 (load bytes 10 8) })

/-! ## The reads of a call stay in the readable region -/

section Region

variable {buf : Buffer}

theorem load_peek {pos len : Nat} (within : pos + len ≤ buf.readableBytes) :
    load buf.peek pos len = load buf.readable pos len := by
  rw [buf.peek_eq, load_append (by rw [buf.length_readable]; exact within)]

theorem byteAt_peek {pos : Nat} (within : pos < buf.readableBytes) :
    byteAt buf.peek pos = byteAt buf.readable pos := by
  rw [buf.peek_eq, byteAt_append (by rw [buf.length_readable]; exact within)]

theorem scanMagic_peek :
    scanMagic buf.peek (min buf.readableBytes kMaxScanBytes) =
      scanMagic buf.readable (min buf.readableBytes kMaxScanBytes) := by
  rw [buf.peek_eq, scanMagic_append]
  rw [buf.length_readable]
  exact Nat.min_le_left _ _

end Region

/-- A decode call acts on the readable region of its buffer as `decodeBytes`. -/
theorem decode_view (pb : Protobuf) (buf : Buffer) (packet : DecodedPacket) :
    decodeBytes pb buf.readable packet =
      ((decode pb buf packet).1, (decode pb buf packet).2.1.readable,
        (decode pb buf packet).2.2) := by
  have size := buf.length_readable
  by_cases header : buf.readableBytes < kFixedHeaderSize
  · simp [decode, decodeBytes, header]
  have room : 18 ≤ buf.readableBytes := Nat.le_of_not_lt header
  have magic : load buf.peek 0 4 = load buf.readable 0 4 := load_peek (by omega)
  have version : byteAt buf.peek 4 = byteAt buf.readable 4 := byteAt_peek (by omega)
  have kind : byteAt buf.peek 5 = byteAt buf.readable 5 := byteAt_peek (by omega)
  have bodyLen : load buf.peek 6 4 = load buf.readable 6 4 := load_peek (by omega)
  have reqId : load buf.peek 10 8 = load buf.readable 10 8 := load_peek (by omega)
  simp only [decode, decodeBytes, size, header, if_false, magic, version, kind, bodyLen, reqId,
    scanMagic_peek, ← declaredLen.eq_1, ← totalLen.eq_1]
  split
  · simp
  · split
    · cases scanMagic buf.readable (min buf.readableBytes kMaxScanBytes) with
      | none => simp
      | some i => simp
    · split
      · simp
      · split
        · simp
        · split
          · simp
          · next complete =>
              unfold totalLen kChecksumSize at complete
              have behind : crc32 buf.peek (kFixedHeaderSize + declaredLen buf.readable) =
                  crc32 buf.readable (kFixedHeaderSize + declaredLen buf.readable) := by
                rw [buf.peek_eq, crc32_append_of_le (by omega)]
              have body : ∀ msgType, decodeBody pb msgType (buf.peek.drop kFixedHeaderSize)
                  (declaredLen buf.readable) packet =
                  decodeBody pb msgType (buf.readable.drop kFixedHeaderSize)
                    (declaredLen buf.readable) packet := by
                intro msgType
                rw [buf.peek_eq, List.drop_append_of_le_length (by omega),
                  decodeBody_append pb msgType (by simp only [List.length_drop]; omega)]
              rw [load_peek (by omega), behind, body]
              split
              · simp
              · generalize decodeBody pb _ _ _ packet = outcome
                rcases outcome with _ | ⟨_ | _, after⟩ <;> simp

end RpcFramework.Codec
