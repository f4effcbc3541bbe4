import RpcFramework.Codec.Crc32
import RpcFramework.Lib.BigEndian
import RpcFramework.Protocol.Messages

/-!
# Encoding packets

A packet is an 18-byte header, a body and a 4-byte checksum of both.  An
integer field is written by converting it to network order and copying its
memory, which puts its big-endian bytes on the wire on every host.  The
encoders report a failure by an empty string, as the source does.
-/

namespace RpcFramework.Codec

open BigEndian

def kMagic : UInt32 := 0x52504346

def kVersion : UInt8 := 1

def kFixedHeaderSize : Nat := 18

def kChecksumSize : Nat := 4

def kMaxBodyLen : Nat := 10 * 1024 * 1024

def kMaxScanBytes : Nat := 1024

def kMaxBufferSize : Nat := 10 * 1024 * 1024

inductive MsgType where
  | request
  | response
  | heartbeat
  deriving DecidableEq, Repr

/-- `static_cast<uint8_t>` of a message type. -/
def MsgType.toByte : MsgType → UInt8
  | .request => 0
  | .response => 1
  | .heartbeat => 2

theorem MsgType.toByte_inj {first second : MsgType} :
    first.toByte = second.toByte ↔ first = second := by
  cases first <;> cases second <;> decide

inductive Status where
  | success
  | failed
  | timeout
  deriving DecidableEq, Repr

/-- `static_cast<uint8_t>` of a status. -/
def Status.toByte : Status → UInt8
  | .success => 0
  | .failed => 1
  | .timeout => 2

/-! ## Integer fields -/

def encodeU16 (v : UInt16) : Bytes := bigEndian 2 v.toNat

def encodeU32 (v : UInt32) : Bytes := bigEndian 4 v.toNat

def encodeU64 (v : UInt64) : Bytes := bigEndian 8 v.toNat

def decodeU16 (bytes : Bytes) : UInt16 := UInt16.ofNat (ofBigEndian bytes)

def decodeU32 (bytes : Bytes) : UInt32 := UInt32.ofNat (ofBigEndian bytes)

def decodeU64 (bytes : Bytes) : UInt64 := UInt64.ofNat (ofBigEndian bytes)

@[simp]
theorem length_encodeU16 (v : UInt16) : (encodeU16 v).length = 2 := length_bigEndian _ _

@[simp]
theorem length_encodeU32 (v : UInt32) : (encodeU32 v).length = 4 := length_bigEndian _ _

@[simp]
theorem length_encodeU64 (v : UInt64) : (encodeU64 v).length = 8 := length_bigEndian _ _

@[simp]
theorem decodeU16_encodeU16 (v : UInt16) : decodeU16 (encodeU16 v) = v := by
  have bound : v.toNat < 256 ^ 2 := v.toNat_lt
  rw [decodeU16, encodeU16, ofBigEndian_bigEndian, Nat.mod_eq_of_lt bound, UInt16.ofNat_toNat]

@[simp]
theorem decodeU32_encodeU32 (v : UInt32) : decodeU32 (encodeU32 v) = v := by
  have bound : v.toNat < 256 ^ 4 := v.toNat_lt
  rw [decodeU32, encodeU32, ofBigEndian_bigEndian, Nat.mod_eq_of_lt bound, UInt32.ofNat_toNat]

@[simp]
theorem decodeU64_encodeU64 (v : UInt64) : decodeU64 (encodeU64 v) = v := by
  have bound : v.toNat < 256 ^ 8 := v.toNat_lt
  rw [decodeU64, encodeU64, ofBigEndian_bigEndian, Nat.mod_eq_of_lt bound, UInt64.ofNat_toNat]

theorem encodeU16_decodeU16 {bytes : Bytes} (size : bytes.length = 2) :
    encodeU16 (decodeU16 bytes) = bytes := by
  have bound := ofBigEndian_lt bytes
  rw [size] at bound
  rw [encodeU16, decodeU16, UInt16.toNat_ofNat_of_lt' bound, ← size, bigEndian_ofBigEndian]

theorem encodeU32_decodeU32 {bytes : Bytes} (size : bytes.length = 4) :
    encodeU32 (decodeU32 bytes) = bytes := by
  have bound := ofBigEndian_lt bytes
  rw [size] at bound
  rw [encodeU32, decodeU32, UInt32.toNat_ofNat_of_lt' bound, ← size, bigEndian_ofBigEndian]

theorem encodeU64_decodeU64 {bytes : Bytes} (size : bytes.length = 8) :
    encodeU64 (decodeU64 bytes) = bytes := by
  have bound := ofBigEndian_lt bytes
  rw [size] at bound
  rw [encodeU64, decodeU64, UInt64.toNat_ofNat_of_lt' bound, ← size, bigEndian_ofBigEndian]

/-! ## Bodies -/

/-- `appendString`: a 2-byte length and the bytes, refused above 65535 bytes. -/
def appendString (out str : Bytes) : Option Bytes :=
  if str.length > 65535 then none
  else some (out ++ encodeU16 (UInt16.ofNat str.length) ++ str)

def encodeRequestBody (pb : Protobuf) (req : RpcRequest)
    (serviceName methodName : Bytes) : Bytes :=
  match appendString [] serviceName with
  | none => []
  | some body =>
      match appendString body methodName with
      | none => []
      | some body =>
          match pb.serializeRequest req with
          | none => []
          | some payload =>
              body ++ encodeU32 (UInt32.ofNat payload.length) ++ payload

def encodeResponseBody (pb : Protobuf) (resp : RpcResponse) (status : Status) : Bytes :=
  match pb.serializeResponse resp with
  | none => []
  | some payload =>
      [status.toByte] ++ encodeU32 (UInt32.ofNat payload.length) ++ payload

/-- The loop over the extras in `encodeHeartbeatBody`. -/
def appendExtras (body : Bytes) : List (Σ _ : Bytes, Bytes) → Option Bytes
  | [] => some body
  | entry :: rest =>
      match appendString body entry.1 with
      | none => none
      | some body =>
          match appendString body entry.2 with
          | none => none
          | some body => appendExtras body rest

def encodeHeartbeatBody (hb : Heartbeat) : Bytes :=
  match appendString [] hb.serviceName with
  | none => []
  | some body =>
      match appendString body hb.nodeId with
      | none => []
      | some body =>
          let body := body ++ encodeU64 hb.timestamp.toUInt64 ++
            encodeU16 (UInt16.ofNat hb.extra.entries.length)
          match appendExtras body hb.extra.entries with
          | none => []
          | some body => body

/-! ## Packets -/

def fixedHeader (msgType : MsgType) (reqId : UInt64) (bodyLen : Nat) : Bytes :=
  encodeU32 kMagic ++ [kVersion, msgType.toByte] ++ encodeU32 (UInt32.ofNat bodyLen) ++
    encodeU64 reqId

def pack (msgType : MsgType) (reqId : UInt64) (body : Bytes) : Bytes :=
  let packet := fixedHeader msgType reqId body.length ++ body
  packet ++ encodeU32 (crc32 packet packet.length)

def encodeRequest (pb : Protobuf) (req : RpcRequest) (reqId : UInt64)
    (serviceName methodName : Bytes) : Bytes :=
  let body := encodeRequestBody pb req serviceName methodName
  if body.isEmpty then [] else pack .request reqId body

def encodeResponse (pb : Protobuf) (resp : RpcResponse) (reqId : UInt64)
    (status : Status) : Bytes :=
  let body := encodeResponseBody pb resp status
  if body.isEmpty then [] else pack .response reqId body

def encodeHeartbeat (hb : Heartbeat) (reqId : UInt64) : Bytes :=
  let body := encodeHeartbeatBody hb
  if body.isEmpty then [] else pack .heartbeat reqId body

@[simp]
theorem length_fixedHeader (msgType : MsgType) (reqId : UInt64) (bodyLen : Nat) :
    (fixedHeader msgType reqId bodyLen).length = kFixedHeaderSize := by
  simp [fixedHeader, kFixedHeaderSize]

@[simp]
theorem length_pack (msgType : MsgType) (reqId : UInt64) (body : Bytes) :
    (pack msgType reqId body).length = kFixedHeaderSize + body.length + kChecksumSize := by
  simp [pack, kChecksumSize, Nat.add_assoc]

end RpcFramework.Codec
