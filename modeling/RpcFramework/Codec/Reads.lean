import RpcFramework.Codec.Grammar
import RpcFramework.Lib.Guarded

/-!
# The reads of the decoder

Every function of the decoder a second time, in guarded form: each sum of positions and
lengths is a sum of 64-bit sizes, each `memcpy` and each byte access is a read in the
region at hand.  The region of `decode` is the readable part of the buffer, that of the
body decoders the declared body.  No input leads to a fault: the guarded decoder gives
the value of `decode` on every buffer.
-/

namespace RpcFramework.Codec

open Guarded

/-! ## The guarded decoder -/

/-- The sum of two values of type `size_t`. -/
def addSize (first second : Nat) : Except Fault Nat := add 64 first second

def readStringGuarded (region : Region UInt8) (pos totalLen : Nat) :
    Except Fault (Option (Bytes × Nat)) := do
  let behind ← addSize pos 2
  if behind > totalLen then .ok none
  else
    let field ← region.read pos 2
    let len := (decodeU16 field).toNat
    let pos ← addSize pos 2
    let behind ← addSize pos len
    if behind > totalLen then .ok none
    else
      let out ← region.read pos len
      let pos ← addSize pos len
      .ok (some (out, pos))

def readPayloadGuarded (region : Region UInt8) (pos bodyLen : Nat) :
    Except Fault (Option Bytes) := do
  let behind ← addSize pos 4
  if behind > bodyLen then .ok none
  else
    let field ← region.read pos 4
    let payloadLen := (decodeU32 field).toNat
    let pos ← addSize pos 4
    let behind ← addSize pos payloadLen
    if behind > bodyLen then .ok none
    else
      let payload ← region.read pos payloadLen
      let pos ← addSize pos payloadLen
      if pos ≠ bodyLen then .ok none
      else .ok (some payload)

def decodeRequestBodyGuarded (pb : Protobuf) (region : Region UInt8) (bodyLen : Nat)
    (packet : DecodedPacket) : Except Fault (Bool × DecodedPacket) := do
  match ← readStringGuarded region 0 bodyLen with
  | none => .ok (false, packet)
  | some (serviceName, pos) =>
      let packet := { packet with serviceName := serviceName }
      match ← readStringGuarded region pos bodyLen with
      | none => .ok (false, packet)
      | some (methodName, pos) =>
          let packet := { packet with methodName := methodName }
          match ← readPayloadGuarded region pos bodyLen with
          | none => .ok (false, packet)
          | some payload =>
              let parsed := pb.parseRequest payload
              .ok (parsed.1, { packet with rpcRequest := parsed.2 })

def decodeResponseBodyGuarded (pb : Protobuf) (region : Region UInt8) (bodyLen : Nat)
    (packet : DecodedPacket) : Except Fault (Bool × DecodedPacket) := do
  if bodyLen < 1 then .ok (false, packet)
  else
    let status ← region.item 0
    let pos ← addSize 0 1
    match ← readPayloadGuarded region pos bodyLen with
    | none => .ok (false, packet)
    | some payload =>
        let parsed := pb.parseResponse payload
        let packet := { packet with rpcResponse := parsed.2 }
        if parsed.1 then .ok (true, { packet with networkStatus := statusOfByte status })
        else .ok (false, packet)

def readExtrasGuarded (region : Region UInt8) (bodyLen : Nat) :
    Nat → Nat → StringMap → Except Fault (Option Nat × StringMap)
  | 0, pos, extra => .ok (some pos, extra)
  | count + 1, pos, extra => do
      match ← readStringGuarded region pos bodyLen with
      | none => .ok (none, extra)
      | some (key, pos) =>
          match ← readStringGuarded region pos bodyLen with
          | none => .ok (none, extra)
          | some (value, pos) =>
              readExtrasGuarded region bodyLen count pos (extra.insert key value)

/-- The part of `decodeHeartbeatBody` behind the two names. -/
def readStampGuarded (region : Region UInt8) (bodyLen pos : Nat) (serviceName nodeId : Bytes)
    (packet : DecodedPacket) : Except Fault (Bool × DecodedPacket) := do
  let behind ← addSize pos 8
  if behind > bodyLen then .ok (false, packet)
  else
    let field ← region.read pos 8
    let timestamp := decodeU64 field
    let pos ← addSize pos 8
    let behind ← addSize pos 2
    if behind > bodyLen then .ok (false, packet)
    else
      let field ← region.read pos 2
      let extraCount := (decodeU16 field).toNat
      let pos ← addSize pos 2
      let extras ← readExtrasGuarded region bodyLen extraCount pos packet.heartbeat.extra
      let packet := { packet with heartbeat := { packet.heartbeat with extra := extras.2 } }
      match extras.1 with
      | none => .ok (false, packet)
      | some pos =>
          if pos ≠ bodyLen then .ok (false, packet)
          else
            .ok (true, { packet with heartbeat :=
              { packet.heartbeat with
                serviceName := serviceName
                nodeId := nodeId
                timestamp := timestamp.toInt64 } })

def decodeHeartbeatBodyGuarded (region : Region UInt8) (bodyLen : Nat)
    (packet : DecodedPacket) : Except Fault (Bool × DecodedPacket) := do
  match ← readStringGuarded region 0 bodyLen with
  | none => .ok (false, packet)
  | some (serviceName, pos) =>
      match ← readStringGuarded region pos bodyLen with
      | none => .ok (false, packet)
      | some (nodeId, pos) => readStampGuarded region bodyLen pos serviceName nodeId packet

def decodeBodyGuarded (pb : Protobuf) (msgType : UInt8) (region : Region UInt8) (bodyLen : Nat)
    (packet : DecodedPacket) : Except Fault (Option (Bool × DecodedPacket)) := do
  if msgType = MsgType.request.toByte then
    let result ← decodeRequestBodyGuarded pb region bodyLen packet
    .ok (some (result.1, { result.2 with msgType := .request }))
  else if msgType = MsgType.response.toByte then
    let result ← decodeResponseBodyGuarded pb region bodyLen packet
    .ok (some (result.1, { result.2 with msgType := .response }))
  else if msgType = MsgType.heartbeat.toByte then
    let result ← decodeHeartbeatBodyGuarded region bodyLen packet
    .ok (some (result.1, { result.2 with msgType := .heartbeat }))
  else .ok none

/-- The magic scan, with the positions that are left to try. -/
def scanMagicGuarded (region : Region UInt8) (scanLimit : Nat) :
    Nat → Nat → Except Fault (Option Nat)
  | 0, _ => .ok none
  | rounds + 1, i => do
      let behind ← addSize i 4
      if behind > scanLimit then .ok none
      else
        let candidate ← region.read i 4
        if checkMagic (decodeU32 candidate) then .ok (some i)
        else
          let i ← addSize i 1
          scanMagicGuarded region scanLimit rounds i

def crc32Guarded (region : Region UInt8) (len : Nat) : Except Fault UInt32 := do
  let crc ← region.foldFrom 64 crc32Step len 0 0xFFFFFFFF
  .ok (crc ^^^ 0xFFFFFFFF)

/-- The bytes that `decode` may read: the readable bytes of the buffer. -/
def readableRegion (buf : Buffer) : Region UInt8 where
  memory := buf.peek
  size := buf.readableBytes
  size_le := buf.readableBytes_le_peek

/-- The part of `decode` behind the test of the version. -/
def decodePacketGuarded (pb : Protobuf) (buf : Buffer) (packet : DecodedPacket) :
    Except Fault (Bool × Buffer × DecodedPacket) := do
  let region := readableRegion buf
  let msgType ← region.item 5
  let field ← region.read 6 4
  let bodyLen := (decodeU32 field).toNat
  if bodyLen > kMaxBodyLen then .ok (false, buf.retrieveAll, packet)
  else
    let reqId ← region.read 10 8
    let front ← addSize kFixedHeaderSize bodyLen
    let totalLen ← addSize front kChecksumSize
    if buf.readableBytes < totalLen then .ok (false, buf, packet)
    else
      let checksum ← region.read front 4
      let calcCrc ← crc32Guarded region front
      if calcCrc ≠ decodeU32 checksum then .ok (false, buf.retrieve totalLen, packet)
      else
        let body ← region.part kFixedHeaderSize bodyLen
        match ← decodeBodyGuarded pb msgType body bodyLen packet with
        | none => .ok (false, buf.retrieve totalLen, packet)
        | some (false, packet) => .ok (false, buf.retrieve totalLen, packet)
        | some (true, packet) =>
            .ok (true, buf.retrieve totalLen, { packet with reqId := decodeU64 reqId })

def decodeGuarded (pb : Protobuf) (buf : Buffer) (packet : DecodedPacket) :
    Except Fault (Bool × Buffer × DecodedPacket) := do
  if buf.readableBytes < kFixedHeaderSize then .ok (false, buf, packet)
  else
    let region := readableRegion buf
    let magic ← region.read 0 4
    if buf.readableBytes > kMaxBufferSize then .ok (false, buf.retrieveAll, packet)
    else if !checkMagic (decodeU32 magic) then
      let scanLimit := min buf.readableBytes kMaxScanBytes
      match ← scanMagicGuarded region scanLimit scanLimit 1 with
      | some i => .ok (false, buf.retrieve i, packet)
      | none => .ok (false, buf.retrieveAll, packet)
    else
      let version ← region.item 4
      if version ≠ kVersion then .ok (false, buf.retrieveAll, packet)
      else decodePacketGuarded pb buf packet

/-! ## The body decoders make no fault -/

section Body

variable {region : Region UInt8} {bodyLen pos : Nat}

theorem addSize_eq {first second : Nat} (fits : first + second < 2 ^ 64) :
    addSize first second = .ok (first + second) :=
  add_eq fits

theorem readStringGuarded_eq (inside : bodyLen ≤ region.size) (small : bodyLen < 2 ^ 63)
    (start : pos ≤ bodyLen) :
    readStringGuarded region pos bodyLen = .ok (readString region.memory pos bodyLen) := by
  rw [readStringGuarded, addSize_eq (by omega), ok_bind, readString]
  split
  · rfl
  · next room =>
      have bound := (decodeU16 (load region.memory pos 2)).toNat_lt
      rw [region.read_eq (by omega), ok_bind, ← load]
      dsimp only
      rw [ok_bind, addSize_eq (by omega), ok_bind]
      split
      · rfl
      · next space => rw [region.read_eq (by omega), ok_bind, ok_bind, ← load]

/-- A bound behind the end of the region is noticed. -/
example : readStringGuarded ⟨[0, 5, 1], 3, by decide⟩ 0 7 = .error .outOfBounds := by decide

/-- The next position is inside the body again. -/
theorem readString_next_le (inside : bodyLen ≤ region.size) {str : Bytes} {next : Nat}
    (read : readString region.memory pos bodyLen = some (str, next)) : next ≤ bodyLen :=
  (readString_eq_some (Nat.le_trans inside region.size_le) read).2.2.1

theorem readPayloadGuarded_eq (inside : bodyLen ≤ region.size) (small : bodyLen < 2 ^ 63)
    (start : pos ≤ bodyLen) :
    readPayloadGuarded region pos bodyLen = .ok (readPayload region.memory pos bodyLen) := by
  rw [readPayloadGuarded, addSize_eq (by omega), ok_bind, readPayload]
  split
  · rfl
  · next room =>
      have bound := (decodeU32 (load region.memory pos 4)).toNat_lt
      rw [region.read_eq (by omega), ok_bind, ← load]
      dsimp only
      rw [ok_bind, addSize_eq (by omega), ok_bind]
      split
      · rfl
      · next space =>
          rw [region.read_eq (by omega), ok_bind, ok_bind, ← load]
          split
          · rfl
          · rfl

theorem decodeRequestBodyGuarded_eq (pb : Protobuf) (inside : bodyLen ≤ region.size)
    (small : bodyLen < 2 ^ 63) (packet : DecodedPacket) :
    decodeRequestBodyGuarded pb region bodyLen packet =
      .ok (decodeRequestBody pb region.memory bodyLen packet) := by
  rw [decodeRequestBodyGuarded, readStringGuarded_eq inside small (Nat.zero_le _), ok_bind,
    decodeRequestBody]
  cases service : readString region.memory 0 bodyLen with
  | none => rfl
  | some first =>
      have next := readString_next_le inside service
      dsimp only
      rw [readStringGuarded_eq inside small next, ok_bind]
      cases method : readString region.memory first.2 bodyLen with
      | none => rfl
      | some second =>
          have behind := readString_next_le inside method
          dsimp only
          rw [readPayloadGuarded_eq inside small behind, ok_bind]
          cases readPayload region.memory second.2 bodyLen with
          | none => rfl
          | some payload => rfl

theorem decodeResponseBodyGuarded_eq (pb : Protobuf) (inside : bodyLen ≤ region.size)
    (small : bodyLen < 2 ^ 63) (packet : DecodedPacket) :
    decodeResponseBodyGuarded pb region bodyLen packet =
      .ok (decodeResponseBody pb region.memory bodyLen packet) := by
  rw [decodeResponseBodyGuarded, decodeResponseBody]
  split
  · rfl
  · next some_byte =>
      rw [region.item_eq (by omega) 0, ok_bind, addSize_eq (by omega), ok_bind,
        readPayloadGuarded_eq inside small (by omega), ok_bind, ← byteAt]
      cases readPayload region.memory 1 bodyLen with
      | none => rfl
      | some payload =>
          dsimp only
          split
          · rfl
          · rfl

theorem readExtrasGuarded_eq (inside : bodyLen ≤ region.size) (small : bodyLen < 2 ^ 63)
    (count : Nat) (start : pos ≤ bodyLen) (extra : StringMap) :
    readExtrasGuarded region bodyLen count pos extra =
      .ok (readExtras region.memory bodyLen count pos extra) := by
  induction count generalizing pos extra with
  | zero => rfl
  | succ count ih =>
      rw [readExtrasGuarded, readStringGuarded_eq inside small start, ok_bind, readExtras]
      cases key : readString region.memory pos bodyLen with
      | none => rfl
      | some first =>
          have next := readString_next_le inside key
          dsimp only
          rw [readStringGuarded_eq inside small next, ok_bind]
          cases value : readString region.memory first.2 bodyLen with
          | none => rfl
          | some second => exact ih (readString_next_le inside value) _

theorem decodeHeartbeatBodyGuarded_eq (inside : bodyLen ≤ region.size) (small : bodyLen < 2 ^ 63)
    (packet : DecodedPacket) :
    decodeHeartbeatBodyGuarded region bodyLen packet =
      .ok (decodeHeartbeatBody region.memory bodyLen packet) := by
  rw [decodeHeartbeatBodyGuarded, readStringGuarded_eq inside small (Nat.zero_le _), ok_bind,
    decodeHeartbeatBody]
  cases service : readString region.memory 0 bodyLen with
  | none => rfl
  | some first =>
      have next := readString_next_le inside service
      dsimp only
      rw [readStringGuarded_eq inside small next, ok_bind]
      cases node : readString region.memory first.2 bodyLen with
      | none => rfl
      | some second =>
          have behind := readString_next_le inside node
          dsimp only
          rw [readStampGuarded, addSize_eq (by omega), ok_bind]
          split
          · rfl
          · next stamp =>
              rw [region.read_eq (by omega), ok_bind, ← load]
              dsimp only
              rw [ok_bind, addSize_eq (by omega), ok_bind]
              split
              · rfl
              · next counted =>
                  rw [region.read_eq (by omega), ok_bind, ← load, ok_bind,
                    readExtrasGuarded_eq inside small _ (by omega), ok_bind]
                  rcases readExtras region.memory bodyLen _ _ _ with ⟨_ | last, extra⟩
                  · rfl
                  · dsimp only
                    split
                    · rfl
                    · rfl

theorem decodeBodyGuarded_eq (pb : Protobuf) (msgType : UInt8) (inside : bodyLen ≤ region.size)
    (small : bodyLen < 2 ^ 63) (packet : DecodedPacket) :
    decodeBodyGuarded pb msgType region bodyLen packet =
      .ok (decodeBody pb msgType region.memory bodyLen packet) := by
  rw [decodeBodyGuarded, decodeBody]
  split
  · rw [decodeRequestBodyGuarded_eq pb inside small, ok_bind]
  · split
    · rw [decodeResponseBodyGuarded_eq pb inside small, ok_bind]
    · split
      · rw [decodeHeartbeatBodyGuarded_eq inside small, ok_bind]
      · rfl

end Body

/-! ## No input leads to a fault -/

section Packet

variable {region : Region UInt8}

/-- The scan tries the positions that `scanMagic` tries. -/
theorem scanMagicGuarded_eq {scanLimit : Nat} (inside : scanLimit ≤ region.size)
    (small : scanLimit < 2 ^ 63) {rounds i : Nat} (enough : scanLimit ≤ rounds + i)
    (start : i ≤ scanLimit + 1) :
    scanMagicGuarded region scanLimit rounds i =
      .ok ((List.range' i (scanLimit - 3 - i)).find? fun i =>
        checkMagic (decodeU32 (load region.memory i 4))) := by
  induction rounds generalizing i with
  | zero =>
      have none_left : scanLimit - 3 - i = 0 := by omega
      rw [none_left]
      rfl
  | succ rounds ih =>
      rw [scanMagicGuarded, addSize_eq (by omega), ok_bind]
      split
      · next short =>
          have none_left : scanLimit - 3 - i = 0 := by omega
          rw [none_left]
          rfl
      · next room =>
          have left : scanLimit - 3 - i = (scanLimit - 3 - (i + 1)) + 1 := by omega
          rw [region.read_eq (by omega), ok_bind, ← load, left, List.range'_succ, List.find?_cons]
          cases checkMagic (decodeU32 (load region.memory i 4)) with
          | true => rfl
          | false =>
              rw [if_neg Bool.false_ne_true, addSize_eq (by omega), ok_bind,
                ih (by omega) (by omega)]

theorem crc32Guarded_eq {len : Nat} (inside : len ≤ region.size) (small : len < 2 ^ 64) :
    crc32Guarded region len = .ok (crc32 region.memory len) := by
  rw [crc32Guarded, region.foldFrom_eq crc32Step (by omega) (by omega), ok_bind, List.drop_zero,
    crc32]

end Packet

/-! ## The whole decoder -/

section Readable

variable {buf : Buffer}

theorem read_readable {pos len : Nat} (inside : pos + len ≤ buf.readableBytes) :
    (readableRegion buf).read pos len = .ok (load buf.peek pos len) :=
  (readableRegion buf).read_eq inside

theorem item_readable {pos : Nat} (inside : pos < buf.readableBytes) :
    (readableRegion buf).item pos = .ok (byteAt buf.peek pos) :=
  (readableRegion buf).item_eq inside 0

theorem crc32_readable {len : Nat} (inside : len ≤ buf.readableBytes) (small : len < 2 ^ 64) :
    crc32Guarded (readableRegion buf) len = .ok (crc32 buf.peek len) :=
  crc32Guarded_eq inside small

theorem part_readable {start size : Nat} (inside : start + size ≤ buf.readableBytes) :
    ∃ body : Region UInt8, (readableRegion buf).part start size = .ok body ∧
      body.memory = buf.peek.drop start ∧ body.size = size :=
  ⟨_, dif_pos inside, rfl, rfl⟩

theorem scan_readable (buf : Buffer) :
    scanMagicGuarded (readableRegion buf) (min buf.readableBytes kMaxScanBytes)
        (min buf.readableBytes kMaxScanBytes) 1 =
      .ok (scanMagic buf.peek (min buf.readableBytes kMaxScanBytes)) := by
  have limit : min buf.readableBytes kMaxScanBytes ≤ 1024 := Nat.min_le_right ..
  have scanned := @scanMagicGuarded_eq (readableRegion buf) (min buf.readableBytes kMaxScanBytes)
    (Nat.min_le_left ..) (by omega) (min buf.readableBytes kMaxScanBytes) 1
    (Nat.le_add_right ..) (by omega)
  rw [scanned, scanMagic, Nat.sub_sub]
  rfl

theorem decodePacketGuarded_eq (pb : Protobuf) (packet : DecodedPacket)
    (header : ¬ buf.readableBytes < kFixedHeaderSize) (small : ¬ buf.readableBytes > kMaxBufferSize)
    (magic : (!checkMagic (decodeU32 (load buf.peek 0 4))) = false)
    (version : ¬ byteAt buf.peek 4 ≠ kVersion) :
    decodePacketGuarded pb buf packet = .ok (decode pb buf packet) := by
  have room : 18 ≤ buf.readableBytes := Nat.le_of_not_lt header
  rw [decodePacketGuarded, decode, if_neg header]
  dsimp only
  rw [if_neg small, magic, if_neg Bool.false_ne_true, if_neg version, item_readable (by omega),
    ok_bind, read_readable (by omega), ok_bind]
  split
  · rfl
  · next fits =>
      have bound : kMaxBodyLen = 10485760 := rfl
      have front : kFixedHeaderSize = 18 := rfl
      have check : kChecksumSize = 4 := rfl
      generalize (decodeU32 (load buf.peek 6 4)).toNat = bodyLen at fits
      rw [read_readable (by omega), ok_bind, addSize_eq (by omega), ok_bind, addSize_eq (by omega),
        ok_bind]
      split
      · rfl
      · next complete =>
          have inside : kFixedHeaderSize + bodyLen ≤ buf.readableBytes := by omega
          obtain ⟨body, taken, memory, size⟩ := part_readable inside
          rw [read_readable (by omega), ok_bind, crc32_readable inside (by omega), ok_bind]
          split
          · rfl
          · rw [taken, ok_bind, decodeBodyGuarded_eq pb _ (Nat.le_of_eq size.symm) (by omega),
              ok_bind, memory]
            rcases decodeBody pb (byteAt buf.peek 5) _ bodyLen packet with _ | ⟨_ | _, after⟩
            · rfl
            · rfl
            · rfl

end Readable

/--
Whatever bytes are in the buffer, no read of the decoder leaves the readable bytes, no
read of a body decoder leaves the declared body, and no sum of positions and lengths
wraps around: the guarded decoder gives the value of the decoder.
-/
theorem decodeGuarded_never_faults (pb : Protobuf) (buf : Buffer) (packet : DecodedPacket) :
    decodeGuarded pb buf packet = .ok (decode pb buf packet) := by
  by_cases header : buf.readableBytes < kFixedHeaderSize
  · rw [decodeGuarded, decode, if_pos header, if_pos header]
  have room : 18 ≤ buf.readableBytes := Nat.le_of_not_lt header
  rw [decodeGuarded, if_neg header]
  dsimp only
  rw [read_readable (by omega), ok_bind]
  by_cases small : buf.readableBytes > kMaxBufferSize
  · rw [if_pos small, decode, if_neg header]
    dsimp only
    rw [if_pos small]
  rw [if_neg small]
  cases magic : !checkMagic (decodeU32 (load buf.peek 0 4)) with
  | true =>
      rw [if_pos rfl, scan_readable, ok_bind, decode, if_neg header]
      dsimp only
      rw [if_neg small, magic, if_pos rfl]
      cases scanMagic buf.peek (min buf.readableBytes kMaxScanBytes) with
      | none => rfl
      | some i => rfl
  | false =>
      rw [if_neg Bool.false_ne_true, item_readable (by omega), ok_bind]
      by_cases version : byteAt buf.peek 4 ≠ kVersion
      · rw [if_pos version, decode, if_neg header]
        dsimp only
        rw [if_neg small, magic, if_neg Bool.false_ne_true, if_pos version]
      · rw [if_neg version, decodePacketGuarded_eq pb packet header small magic version]

end RpcFramework.Codec
