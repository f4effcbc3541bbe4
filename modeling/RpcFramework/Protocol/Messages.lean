import RpcFramework.Network.Buffer
import Mathlib.Data.Finmap

/-!
# Protocol messages and the protobuf runtime

The messages of the wire protocol with the fields that the framework reads and
writes.  `std::string` and `bytes` fields are byte lists.  The metadata of a
request is only looked up, so it is a finite map; the extras of a heartbeat are
also iterated by the encoder, so their map keeps its iteration order.

The generated message classes delegate to the protobuf runtime, which is not
part of the repository.  `Protobuf` holds its four entry points.
-/

namespace RpcFramework

/-- The bytes of a string literal. -/
def text (str : String) : Bytes := str.toUTF8.toList

/-- A `map<string, string>` together with its iteration order. -/
abbrev StringMap := AList (fun _ : Bytes => Bytes)

/-- A `map<string, string>` that is never iterated. -/
abbrev Metadata := Finmap (fun _ : Bytes => Bytes)

structure RpcRequest where
  payload : Bytes
  metadata : Metadata

structure RpcResponse where
  success : Bool
  payload : Bytes
  errorMsg : Bytes
  deriving DecidableEq

structure Heartbeat where
  serviceName : Bytes
  nodeId : Bytes
  timestamp : Int64
  extra : StringMap

/-- A message with every field at its default. -/
def RpcRequest.cleared : RpcRequest := ⟨[], ∅⟩

def RpcResponse.cleared : RpcResponse := ⟨false, [], []⟩

def Heartbeat.cleared : Heartbeat := ⟨[], [], 0, ∅⟩

/-- Two heartbeats with the same fields; the iteration order of the extras is
not part of the content. -/
def Heartbeat.SameContent (first second : Heartbeat) : Prop :=
  first.serviceName = second.serviceName ∧ first.nodeId = second.nodeId ∧
    first.timestamp = second.timestamp ∧
    ∀ key, first.extra.lookup key = second.extra.lookup key

/--
The protobuf runtime.  `SerializeToString` may fail.  `ParseFromString` clears
the message first and also leaves some message behind when it fails.
-/
structure Protobuf where
  serializeRequest : RpcRequest → Option Bytes
  parseRequest : Bytes → Bool × RpcRequest
  serializeResponse : RpcResponse → Option Bytes
  parseResponse : Bytes → Bool × RpcResponse

namespace Protobuf

/-- The request serializes, and parsing its serialization gives it back. -/
def InvertsRequest (pb : Protobuf) (req : RpcRequest) : Prop :=
  ∃ payload, pb.serializeRequest req = some payload ∧ pb.parseRequest payload = (true, req)

def InvertsResponse (pb : Protobuf) (resp : RpcResponse) : Prop :=
  ∃ payload, pb.serializeResponse resp = some payload ∧ pb.parseResponse payload = (true, resp)

/-- If the serialization of the request parses at all, it parses to the request. -/
def KeepsRequest (pb : Protobuf) (req : RpcRequest) : Prop :=
  ∀ payload parsed, pb.serializeRequest req = some payload →
    pb.parseRequest payload = (true, parsed) → parsed = req

def KeepsResponse (pb : Protobuf) (resp : RpcResponse) : Prop :=
  ∀ payload parsed, pb.serializeResponse resp = some payload →
    pb.parseResponse payload = (true, parsed) → parsed = resp

theorem InvertsRequest.keeps {pb : Protobuf} {req : RpcRequest}
    (inverts : pb.InvertsRequest req) : pb.KeepsRequest req := by
  obtain ⟨payload, serialized, parsed⟩ := inverts
  intro other result also found
  cases serialized.symm.trans also
  exact (congrArg Prod.snd (parsed.symm.trans found)).symm

theorem InvertsResponse.keeps {pb : Protobuf} {resp : RpcResponse}
    (inverts : pb.InvertsResponse resp) : pb.KeepsResponse resp := by
  obtain ⟨payload, serialized, parsed⟩ := inverts
  intro other result also found
  cases serialized.symm.trans also
  exact (congrArg Prod.snd (parsed.symm.trans found)).symm

end Protobuf

end RpcFramework
