import RpcFramework.Client.Calls
import RpcFramework.LoadBalance.ConsistentHash
import RpcFramework.Protocol.Wire

/-!
# Trace ids

The request of a call on its way to the encoder.  A chain of interceptors may change
it, and a trace id is put into its metadata in two places: by `TraceInterceptor`, which
keeps an id that is there, and by `doCall`, which does so without a chain only and
replaces the id that is there.  The callback overload without a chain does neither.
-/

namespace RpcFramework.Client.Tracing

open Codec

def traceKey : Bytes := text "trace-id"

/-- `std::to_string` of a signed number. -/
def toDecimal (n : Int) : Bytes :=
  if n < 0 then 0x2d :: Decimal.decimal n.natAbs else Decimal.decimal n.natAbs

/-- The clock, and the hash of the id of the calling thread. -/
structure Moment where
  now : Int
  thread : UInt64
  deriving DecidableEq, Repr

/-- The text of clock and thread in a trace id. -/
def Moment.stamp (moment : Moment) : Bytes :=
  toDecimal moment.now ++ 0x2d :: Decimal.decimal moment.thread.toNat

def setTraceId (req : RpcRequest) (id : Bytes) : RpcRequest :=
  { req with metadata := req.metadata.insert traceKey id }

/-! ## The chain -/

/-- The interceptors of the repository and foreign ones.  The breaker and the limiter
give their verdict without a look at the request. -/
inductive Interceptor where
  | circuitBreaker (allows : Bool)
  | rateLimit (allows : Bool)
  | trace (moment : Moment)
  | log
  | foreign (preHandle : RpcRequest → Bool × RpcRequest)

/-- `preHandle`: the verdict, and the request as it is left. -/
def Interceptor.preHandle : Interceptor → RpcRequest → Bool × RpcRequest
  | .circuitBreaker allows, req => (allows, req)
  | .rateLimit allows, req => (allows, req)
  | .trace moment, req =>
      match req.metadata.lookup traceKey with
      | some _ => (true, req)
      | none => (true, setTraceId req moment.stamp)
  | .log, req => (true, req)
  | .foreign preHandle, req => preHandle req

/-- The loop over the interceptors; `none` if one of them rejects the request. -/
def preHandleAll : List Interceptor → RpcRequest → Option RpcRequest
  | [], req => some req
  | interceptor :: rest, req =>
      match interceptor.preHandle req with
      | (false, _) => none
      | (true, req) => preHandleAll rest req

/-- `InterceptorChain::execute`; `postHandle` cannot change the response. -/
def execute {α : Type} (chain : List Interceptor) (req : RpcRequest) (handler : RpcRequest → α) :
    Except RpcResponse α :=
  match preHandleAll chain req with
  | none => .error Cause.blocked.value
  | some req => .ok (handler req)

/-! ## Calls -/

/-- A client with its interceptors. -/
structure TracedClient where
  invalid : Bool
  chain : List Interceptor

structure Call where
  overload : Overload
  serviceName : Bytes
  methodName : Bytes
  request : RpcRequest
  reqId : UInt64
  moment : Moment

/-- The id that `doCall` makes up. -/
def Call.traceId (call : Call) : Bytes :=
  Decimal.decimal call.reqId.toNat ++ 0x2d :: call.moment.stamp

/-- A request with its encoding, which is empty when the encoding failed. -/
structure Encoded where
  request : RpcRequest
  packet : Bytes

def encode (pb : Protobuf) (call : Call) (req : RpcRequest) : Encoded :=
  ⟨req, encodeRequest pb req call.reqId call.serviceName call.methodName⟩

namespace TracedClient

/-- `doCall` up to the packet. -/
def doCall (pb : Protobuf) (client : TracedClient) (call : Call) (req : RpcRequest) : Encoded :=
  if client.chain.length = 0 then encode pb call (setTraceId req call.traceId)
  else encode pb call req

/-- Both overloads of `asyncCall` up to the packet, or the response that they give at
once. -/
def asyncCall (pb : Protobuf) (client : TracedClient) (call : Call) :
    Except RpcResponse Encoded :=
  if client.invalid then .error Cause.invalid.value
  else if client.chain.length > 0 then execute client.chain call.request (client.doCall pb call)
  else
    match call.overload with
    | .future => .ok (client.doCall pb call call.request)
    | .callback => .ok (encode pb call call.request)

end TracedClient

/-! ## The trace id of the encoded request -/

/-- The id that the interceptor puts into a request without one. -/
def Interceptor.stamp? : Interceptor → Option Bytes
  | .trace moment => some moment.stamp
  | _ => none

/-- The interceptor never rejects, and leaves the trace id alone unless it is a
`TraceInterceptor`. -/
def Interceptor.Transparent (interceptor : Interceptor) : Prop :=
  ∀ req, (interceptor.preHandle req).1 = true ∧
    (interceptor.stamp? = none →
      (interceptor.preHandle req).2.metadata.lookup traceKey = req.metadata.lookup traceKey)

theorem lookup_setTraceId (req : RpcRequest) (id : Bytes) :
    (setTraceId req id).metadata.lookup traceKey = some id :=
  Finmap.lookup_insert _

theorem Interceptor.Transparent.lookup {interceptor : Interceptor}
    (transparent : interceptor.Transparent) (req : RpcRequest) :
    (interceptor.preHandle req).2.metadata.lookup traceKey =
      (req.metadata.lookup traceKey).or interceptor.stamp? := by
  cases stamped : interceptor.stamp? with
  | none => rw [(transparent req).2 stamped, Option.or_none]
  | some id =>
      match interceptor, stamped with
      | .trace moment, rfl =>
          rw [Interceptor.preHandle]
          cases present : req.metadata.lookup traceKey with
          | none => exact lookup_setTraceId req moment.stamp
          | some id => exact present

/-- The first trace interceptor puts its id into a request without one. -/
theorem preHandleAll_transparent {chain : List Interceptor}
    (transparent : ∀ interceptor ∈ chain, interceptor.Transparent) (req : RpcRequest) :
    ∃ handled, preHandleAll chain req = some handled ∧
      handled.metadata.lookup traceKey =
        (req.metadata.lookup traceKey).or (chain.findSome? Interceptor.stamp?) := by
  induction chain generalizing req with
  | nil => exact ⟨req, rfl, Option.or_none.symm⟩
  | cons interceptor rest ih =>
      obtain ⟨here, later⟩ := List.forall_mem_cons.mp transparent
      obtain ⟨handled, passed, found⟩ := ih later (interceptor.preHandle req).2
      have passes := (here req).1
      rw [here.lookup, Option.or_assoc] at found
      refine ⟨handled, ?_, found.trans ?_⟩
      · rw [preHandleAll]
        split
        · next rejected => rw [rejected] at passes; cases passes
        · next next result => rw [result] at passed; exact passed
      · rw [List.findSome?_cons]
        cases interceptor.stamp? with
        | none => rfl
        | some id => rfl

/-- What the chain and the overload must give so that the trace id is there and an id
of the caller survives. -/
def TracedClient.Traces (client : TracedClient) (call : Call) : Prop :=
  match client.chain, call.overload with
  | [], .future => ∀ id, call.request.metadata.lookup traceKey = some id → id = call.traceId
  | [], .callback => (call.request.metadata.lookup traceKey).isSome = true
  | chain, _ => (call.request.metadata.lookup traceKey).isSome = true ∨
      ∃ interceptor ∈ chain, interceptor.stamp?.isSome = true

/-- There is a trace id, and it is that of the caller if the caller gave one. -/
def Propagated (caller sent : Option Bytes) : Prop :=
  sent.isSome = true ∧ ∀ id, caller = some id → sent = some id

theorem propagated_or_iff {caller stamped : Option Bytes} :
    Propagated caller (caller.or stamped) ↔ caller.isSome = true ∨ stamped.isSome = true := by
  cases caller with
  | none => exact ⟨fun sent => Or.inr sent.1, fun sent => ⟨sent.resolve_left nofun, nofun⟩⟩
  | some caller => exact iff_of_true ⟨rfl, fun id same => same⟩ (Or.inl rfl)

theorem isSome_findSome?_stamp {chain : List Interceptor} :
    (chain.findSome? Interceptor.stamp?).isSome = true ↔
      ∃ interceptor ∈ chain, interceptor.stamp?.isSome = true :=
  List.findSome?_isSome_iff

theorem propagated_made_up_iff {caller : Option Bytes} {made : Bytes} :
    Propagated caller (some made) ↔ ∀ id, caller = some id → id = made := by
  refine ⟨fun sent id gave => ?_, fun same => ⟨rfl, fun id gave => ?_⟩⟩
  · exact (Option.some.inj (sent.2 id gave)).symm
  · rw [same id gave]

theorem propagated_self_iff {caller : Option Bytes} :
    Propagated caller caller ↔ caller.isSome = true :=
  ⟨And.left, fun gave => ⟨gave, fun _ => id⟩⟩

/-- A valid client encodes the request of a call whose chain lets it pass. -/
theorem asyncCall_valid (pb : Protobuf) {chain : List Interceptor} (call : Call)
    (transparent : ∀ interceptor ∈ chain, interceptor.Transparent) :
    ∃ encoded, TracedClient.asyncCall pb ⟨false, chain⟩ call = .ok encoded ∧
      (Propagated (call.request.metadata.lookup traceKey)
        (encoded.request.metadata.lookup traceKey) ↔ TracedClient.Traces ⟨false, chain⟩ call) := by
  cases chain with
  | nil =>
      unfold TracedClient.asyncCall TracedClient.Traces
      dsimp only
      cases call.overload with
      | future =>
          refine ⟨encode pb call (setTraceId call.request call.traceId), rfl, ?_⟩
          rw [encode, lookup_setTraceId]
          exact propagated_made_up_iff
      | callback => exact ⟨_, rfl, propagated_self_iff⟩
  | cons interceptor rest =>
      obtain ⟨handled, passed, found⟩ := preHandleAll_transparent transparent call.request
      refine ⟨encode pb call handled, ?_, ?_⟩
      · unfold TracedClient.asyncCall execute
        dsimp only
        rw [passed]
        rfl
      · rw [encode, found, propagated_or_iff, isSome_findSome?_stamp]
        rfl

/--
If no interceptor rejects the request or touches the trace id but `TraceInterceptor`,
the encoded request carries a trace id, the caller's one if there is one, exactly in
these cases: with a chain, if it has a `TraceInterceptor` or the caller gave an id;
without a chain, for the future overload if the caller gave no other id than the one that
`doCall` makes up, and for the callback overload if the caller gave one.
-/
theorem trace_id_propagated_iff (pb : Protobuf) (client : TracedClient) (call : Call)
    (transparent : ∀ interceptor ∈ client.chain, interceptor.Transparent) :
    (∀ encoded, client.asyncCall pb call = .ok encoded →
      Propagated (call.request.metadata.lookup traceKey)
        (encoded.request.metadata.lookup traceKey)) ↔
      client.invalid = true ∨ client.Traces call := by
  obtain ⟨invalid, chain⟩ := client
  cases invalid with
  | true => exact iff_of_true nofun (Or.inl rfl)
  | false =>
      obtain ⟨encoded, called, propagated⟩ := asyncCall_valid pb call transparent
      rw [or_iff_right Bool.false_ne_true, ← propagated, called]
      constructor
      · exact fun all => all encoded rfl
      · rintro sent other ⟨⟩
        exact sent

/-- A call by callback with an empty request. -/
def callbackCall : Call := ⟨.callback, text "Echo", text "echo", .cleared, 1, ⟨7, 1⟩⟩

/-- A client with a limiter and a trace interceptor. -/
def tracingClient : TracedClient := ⟨false, [.rateLimit true, .trace ⟨5, 1⟩]⟩

theorem trace_id_propagated_iff_tracingClient :
    tracingClient.Traces callbackCall ∧
      ∀ encoded, tracingClient.asyncCall Wire.wireProtobuf callbackCall = .ok encoded →
        Propagated (callbackCall.request.metadata.lookup traceKey)
          (encoded.request.metadata.lookup traceKey) := by
  have traces : tracingClient.Traces callbackCall :=
    Or.inr ⟨.trace ⟨5, 1⟩, List.mem_cons_of_mem _ (List.mem_singleton.mpr rfl), rfl⟩
  refine ⟨traces, (trace_id_propagated_iff Wire.wireProtobuf tracingClient callbackCall ?_).mpr
    (Or.inr traces)⟩
  refine List.forall_mem_cons.mpr ⟨fun req => ⟨rfl, fun _ => rfl⟩, ?_⟩
  refine List.forall_mem_singleton.mpr fun req => ⟨?_, nofun⟩
  rw [Interceptor.preHandle]
  split
  · rfl
  · rfl

/-- Without a chain, the callback overload encodes the request as it is. -/
theorem callback_call_without_trace_id :
    ∃ encoded, TracedClient.asyncCall Wire.wireProtobuf ⟨false, []⟩ callbackCall = .ok encoded ∧
      encoded.request.metadata.lookup traceKey = none :=
  ⟨encode Wire.wireProtobuf callbackCall .cleared, rfl, Finmap.lookup_empty _⟩

end RpcFramework.Client.Tracing
