import RpcFramework.Codec.Encode

/-!
# Decoding packets

`decode` works on the memory at the reader index of the buffer and on the
number of readable bytes, as the source does; a `memcpy` is a `load`.  The
packet that is decoded into is passed in, and a failed attempt leaves in it
what the source has assigned by then.
-/

namespace RpcFramework.Codec

structure DecodedPacket where
  msgType : MsgType
  reqId : UInt64
  rpcRequest : RpcRequest
  rpcResponse : RpcResponse
  heartbeat : Heartbeat
  serviceName : Bytes
  methodName : Bytes
  networkStatus : Status

/-- A newly constructed packet.  The source leaves `msg_type` and `req_id`
uninitialised, so they are arbitrary. -/
def DecodedPacket.fresh (msgType : MsgType) (reqId : UInt64) : DecodedPacket :=
  ⟨msgType, reqId, .cleared, .cleared, .cleared, [], [], .success⟩

/-- The `len` bytes of memory at an offset. -/
def load (data : Bytes) (pos len : Nat) : Bytes := (data.drop pos).take len

/-- The byte `data[pos]`. -/
def byteAt (data : Bytes) (pos : Nat) : UInt8 := data.getD pos 0

def checkMagic (magic : UInt32) : Bool := magic == kMagic

/-- `readString`: the string at `pos` and the position behind it. -/
def readString (data : Bytes) (pos totalLen : Nat) : Option (Bytes × Nat) :=
  if pos + 2 > totalLen then none
  else
    let len := (decodeU16 (load data pos 2)).toNat
    let pos := pos + 2
    if pos + len > totalLen then none
    else some (load data pos len, pos + len)

/-- The 4-byte length and the payload that end a request or response body. -/
def readPayload (data : Bytes) (pos bodyLen : Nat) : Option Bytes :=
  if pos + 4 > bodyLen then none
  else
    let payloadLen := (decodeU32 (load data pos 4)).toNat
    let pos := pos + 4
    if pos + payloadLen > bodyLen then none
    else if pos + payloadLen ≠ bodyLen then none
    else some (load data pos payloadLen)

def decodeRequestBody (pb : Protobuf) (data : Bytes) (bodyLen : Nat)
    (packet : DecodedPacket) : Bool × DecodedPacket :=
  match readString data 0 bodyLen with
  | none => (false, packet)
  | some (serviceName, pos) =>
      let packet := { packet with serviceName := serviceName }
      match readString data pos bodyLen with
      | none => (false, packet)
      | some (methodName, pos) =>
          let packet := { packet with methodName := methodName }
          match readPayload data pos bodyLen with
          | none => (false, packet)
          | some payload =>
              let parsed := pb.parseRequest payload
              (parsed.1, { packet with rpcRequest := parsed.2 })

/-- The network status of a response: an unknown status byte reads as failed. -/
def statusOfByte (status : UInt8) : Status :=
  if status ≤ Status.timeout.toByte then
    if status = Status.success.toByte then .success
    else if status = Status.failed.toByte then .failed
    else .timeout
  else .failed

def decodeResponseBody (pb : Protobuf) (data : Bytes) (bodyLen : Nat)
    (packet : DecodedPacket) : Bool × DecodedPacket :=
  if bodyLen < 1 then (false, packet)
  else
    let status := byteAt data 0
    match readPayload data 1 bodyLen with
    | none => (false, packet)
    | some payload =>
        let parsed := pb.parseResponse payload
        let packet := { packet with rpcResponse := parsed.2 }
        if parsed.1 then (true, { packet with networkStatus := statusOfByte status })
        else (false, packet)

/-- The loop over the extras in `decodeHeartbeatBody`; the pairs read before a
failure stay in the map. -/
def readExtras (data : Bytes) (bodyLen : Nat) : Nat → Nat → StringMap → Option Nat × StringMap
  | 0, pos, extra => (some pos, extra)
  | count + 1, pos, extra =>
      match readString data pos bodyLen with
      | none => (none, extra)
      | some (key, pos) =>
          match readString data pos bodyLen with
          | none => (none, extra)
          | some (value, pos) => readExtras data bodyLen count pos (extra.insert key value)

def decodeHeartbeatBody (data : Bytes) (bodyLen : Nat)
    (packet : DecodedPacket) : Bool × DecodedPacket :=
  match readString data 0 bodyLen with
  | none => (false, packet)
  | some (serviceName, pos) =>
      match readString data pos bodyLen with
      | none => (false, packet)
      | some (nodeId, pos) =>
          if pos + 8 > bodyLen then (false, packet)
          else
            let timestamp := decodeU64 (load data pos 8)
            let pos := pos + 8
            if pos + 2 > bodyLen then (false, packet)
            else
              let extraCount := (decodeU16 (load data pos 2)).toNat
              let pos := pos + 2
              let extras := readExtras data bodyLen extraCount pos packet.heartbeat.extra
              let packet :=
                { packet with heartbeat := { packet.heartbeat with extra := extras.2 } }
              match extras.1 with
              | none => (false, packet)
              | some pos =>
                  if pos ≠ bodyLen then (false, packet)
                  else
                    (true, { packet with heartbeat :=
                      { packet.heartbeat with
                        serviceName := serviceName
                        nodeId := nodeId
                        timestamp := timestamp.toInt64 } })

/-- The body decoder selected by the message type byte; `none` for an unknown type.
Each case also stores the message type, whether or not the body is accepted. -/
def decodeBody (pb : Protobuf) (msgType : UInt8) (data : Bytes) (bodyLen : Nat)
    (packet : DecodedPacket) : Option (Bool × DecodedPacket) :=
  if msgType = MsgType.request.toByte then
    let result := decodeRequestBody pb data bodyLen packet
    some (result.1, { result.2 with msgType := .request })
  else if msgType = MsgType.response.toByte then
    let result := decodeResponseBody pb data bodyLen packet
    some (result.1, { result.2 with msgType := .response })
  else if msgType = MsgType.heartbeat.toByte then
    let result := decodeHeartbeatBody data bodyLen packet
    some (result.1, { result.2 with msgType := .heartbeat })
  else none

/-- The loop that looks for the magic behind the first byte, within `scanLimit` bytes. -/
def scanMagic (data : Bytes) (scanLimit : Nat) : Option Nat :=
  (List.range' 1 (scanLimit - 4)).find? fun i => checkMagic (decodeU32 (load data i 4))

/-- `Codec::decode`: the result, the buffer and the packet after the call. -/
def decode (pb : Protobuf) (buf : Buffer) (packet : DecodedPacket) :
    Bool × Buffer × DecodedPacket :=
  if buf.readableBytes < kFixedHeaderSize then (false, buf, packet)
  else
    let data := buf.peek
    let magic := decodeU32 (load data 0 4)
    if buf.readableBytes > kMaxBufferSize then (false, buf.retrieveAll, packet)
    else if !checkMagic magic then
      match scanMagic data (min buf.readableBytes kMaxScanBytes) with
      | some i => (false, buf.retrieve i, packet)
      | none => (false, buf.retrieveAll, packet)
    else if byteAt data 4 ≠ kVersion then (false, buf.retrieveAll, packet)
    else
      let msgType := byteAt data 5
      let bodyLen := (decodeU32 (load data 6 4)).toNat
      if bodyLen > kMaxBodyLen then (false, buf.retrieveAll, packet)
      else
        let reqId := decodeU64 (load data 10 8)
        let totalLen := kFixedHeaderSize + bodyLen + kChecksumSize
        if buf.readableBytes < totalLen then (false, buf, packet)
        else
          let checksum := decodeU32 (load data (kFixedHeaderSize + bodyLen) 4)
          if crc32 data (kFixedHeaderSize + bodyLen) ≠ checksum then
            (false, buf.retrieve totalLen, packet)
          else
            match decodeBody pb msgType (data.drop kFixedHeaderSize) bodyLen packet with
            | none => (false, buf.retrieve totalLen, packet)
            | some (false, packet) => (false, buf.retrieve totalLen, packet)
            | some (true, packet) =>
                (true, buf.retrieve totalLen, { packet with reqId := reqId })

end RpcFramework.Codec
