import RpcFramework.Protocol.Messages

/-!
# The protobuf wire format of plain messages

The proto3 encoding of requests without metadata and of responses: a field of
type `bytes` or `string` is its tag, a varint length and the content, and a
field at its default is left out.  `wireProtobuf` is the runtime restricted to
these messages; concrete streams are evaluated with it.
-/

namespace RpcFramework.Wire

/-- The base-128 groups of a number of at most `groups` groups, lowest first. -/
def varint : Nat → Nat → Bytes
  | 0, _ => []
  | groups + 1, n =>
      if n < 128 then [UInt8.ofNat n]
      else UInt8.ofNat (n % 128 + 128) :: varint groups (n / 128)

def readVarint : Bytes → Option (Nat × Bytes)
  | [] => none
  | byte :: rest =>
      if byte < 128 then some (byte.toNat, rest)
      else
        match readVarint rest with
        | none => none
        | some (high, rest) => some (byte.toNat - 128 + 128 * high, rest)

/-- A length-delimited field. -/
def bytesField (tag : UInt8) (content : Bytes) : Bytes :=
  if content.isEmpty then [] else tag :: (varint 5 content.length ++ content)

/-- Read a length-delimited field that may be left out. -/
def readBytesField (tag : UInt8) : Bytes → Option (Bytes × Bytes)
  | [] => some ([], [])
  | byte :: rest =>
      if byte ≠ tag then some ([], byte :: rest)
      else
        match readVarint rest with
        | none => none
        | some (len, rest) =>
            if len > rest.length then none else some (rest.take len, rest.drop len)

def serializeRequest (req : RpcRequest) : Option Bytes :=
  if req.metadata.keys = ∅ then some (bytesField 0x0A req.payload) else none

def parseRequest (bytes : Bytes) : Bool × RpcRequest :=
  match readBytesField 0x0A bytes with
  | some (payload, []) => (true, ⟨payload, ∅⟩)
  | _ => (false, .cleared)

def serializeResponse (resp : RpcResponse) : Option Bytes :=
  some ((if resp.success then [0x08, 0x01] else []) ++ bytesField 0x12 resp.payload ++
    bytesField 0x1A resp.errorMsg)

/-- The `bytes` and `string` fields of a response whose flag has been read. -/
def parseTexts (success : Bool) (bytes : Bytes) : Bool × RpcResponse :=
  match readBytesField 0x12 bytes with
  | none => (false, .cleared)
  | some (payload, rest) =>
      match readBytesField 0x1A rest with
      | some (errorMsg, []) => (true, ⟨success, payload, errorMsg⟩)
      | _ => (false, .cleared)

def parseResponse : Bytes → Bool × RpcResponse
  | 0x08 :: 0x01 :: rest => parseTexts true rest
  | bytes => parseTexts false bytes

def wireProtobuf : Protobuf where
  serializeRequest := serializeRequest
  parseRequest := parseRequest
  serializeResponse := serializeResponse
  parseResponse := parseResponse

/-! ## Parsing inverts serializing -/

theorem readVarint_varint {groups n : Nat} (bounded : n < 128 ^ groups) (positive : 0 < groups)
    (rest : Bytes) : readVarint (varint groups n ++ rest) = some (n, rest) := by
  induction groups generalizing n with
  | zero => exact absurd positive (Nat.lt_irrefl 0)
  | succ groups ih =>
      by_cases last : n < 128
      · have value : (UInt8.ofNat n).toNat = n := by
          rw [UInt8.toNat_ofNat']
          omega
        have low : UInt8.ofNat n < 128 := by
          rw [UInt8.lt_iff_toNat_lt, value]
          exact last
        rw [varint, if_pos last, List.singleton_append, readVarint, if_pos low, value]
      · have value : (UInt8.ofNat (n % 128 + 128)).toNat = n % 128 + 128 := by
          rw [UInt8.toNat_ofNat']
          omega
        have high : ¬ UInt8.ofNat (n % 128 + 128) < 128 := by
          rw [UInt8.lt_iff_toNat_lt, value]
          exact Nat.not_lt.mpr (Nat.le_add_left _ _)
        have more : 0 < groups := by
          rcases Nat.eq_zero_or_pos groups with none | some
          · subst none
            exact absurd bounded last
          · exact some
        have smaller : n / 128 < 128 ^ groups := by
          rw [Nat.pow_succ] at bounded
          exact Nat.div_lt_of_lt_mul (Nat.mul_comm _ _ ▸ bounded)
        rw [varint, if_neg last, List.cons_append, readVarint, if_neg high, ih smaller more]
        simp only [value, Nat.add_sub_cancel, Nat.mod_add_div]

/-- A field is read back when what follows it does not start with its tag. -/
theorem readBytesField_bytesField {tag : UInt8} {content rest : Bytes}
    (short : content.length < 128 ^ 5) (other : rest.head? ≠ some tag) :
    readBytesField tag (bytesField tag content ++ rest) = some (content, rest) := by
  cases content with
  | nil =>
      cases rest with
      | nil => rfl
      | cons byte rest =>
          have differs : byte ≠ tag := fun same => other (congrArg some same)
          simp [bytesField, readBytesField, differs]
  | cons first content =>
      simp only [bytesField, List.isEmpty_cons, Bool.false_eq_true, if_false, List.cons_append,
        List.append_assoc, readBytesField, ne_eq, not_true_eq_false]
      rw [readVarint_varint short (by decide)]
      simp

theorem head?_bytesField (tag : UInt8) (content : Bytes) :
    (bytesField tag content).head? = none ∨ (bytesField tag content).head? = some tag := by
  cases content with
  | nil => exact Or.inl rfl
  | cons first content => exact Or.inr rfl

theorem inverts_request {req : RpcRequest} (plain : req.metadata = ∅)
    (short : req.payload.length < 128 ^ 5) : wireProtobuf.InvertsRequest req := by
  obtain ⟨payload, metadata⟩ := req
  subst plain
  refine ⟨bytesField 0x0A payload, rfl, ?_⟩
  have read : readBytesField 0x0A (bytesField 0x0A payload ++ []) = some (payload, []) :=
    readBytesField_bytesField short (by simp)
  rw [List.append_nil] at read
  change parseRequest _ = _
  rw [parseRequest, read]

theorem parseTexts_fields (success : Bool) {payload errorMsg : Bytes}
    (shortPayload : payload.length < 128 ^ 5) (shortError : errorMsg.length < 128 ^ 5) :
    parseTexts success (bytesField 0x12 payload ++ bytesField 0x1A errorMsg) =
      (true, ⟨success, payload, errorMsg⟩) := by
  have differs : (bytesField 0x1A errorMsg).head? ≠ some 0x12 := by
    rcases head?_bytesField 0x1A errorMsg with absent | present
    · simp [absent]
    · rw [present]
      decide
  have last : readBytesField 0x1A (bytesField 0x1A errorMsg ++ []) = some (errorMsg, []) :=
    readBytesField_bytesField shortError (by simp)
  rw [List.append_nil] at last
  rw [parseTexts, readBytesField_bytesField shortPayload differs]
  simp only [last]

/-- The flag is absent from the encoding of an unsuccessful response. -/
theorem parseResponse_fields (payload errorMsg : Bytes) :
    parseResponse (bytesField 0x12 payload ++ bytesField 0x1A errorMsg) =
      parseTexts false (bytesField 0x12 payload ++ bytesField 0x1A errorMsg) := by
  cases payload with
  | nil =>
      cases errorMsg with
      | nil => rfl
      | cons first errorMsg => rfl
  | cons first payload => rfl

theorem inverts_response {resp : RpcResponse} (shortPayload : resp.payload.length < 128 ^ 5)
    (shortError : resp.errorMsg.length < 128 ^ 5) : wireProtobuf.InvertsResponse resp := by
  obtain ⟨success, payload, errorMsg⟩ := resp
  refine ⟨_, rfl, ?_⟩
  change parseResponse _ = _
  cases success with
  | false =>
      simp only [Bool.false_eq_true, if_false, List.nil_append, parseResponse_fields]
      exact parseTexts_fields false shortPayload shortError
  | true => exact parseTexts_fields true shortPayload shortError

end RpcFramework.Wire
