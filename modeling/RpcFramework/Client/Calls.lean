import RpcFramework.CircuitBreaker.Breaker
import RpcFramework.Codec.Decode

/-!
# Calls of the asynchronous client

`RpcAsyncClient` as a transition system.  A call goes through the interceptor
chain, is registered in one of two tables under its request id, arms a timer
and sends its packet; each of these is a step of the calling thread.  Response
packets and timers are steps of the loop threads.  A handler has two steps: it
records an outcome on the circuit breaker, and then, under the lock of the
tables, it completes the call whose entry it finds.

Every call keeps the history that the properties speak about: how its promise
or callback was completed and what its own thread handed to the caller.  The calls
on the circuit breaker are logged where they are made.
-/

namespace RpcFramework.Client

open Codec

abbrev CallId := Nat

/-- The two overloads of `asyncCall`. -/
inductive Overload where
  | future
  | callback
  deriving DecidableEq, Repr

/-- An interceptor of the chain: the one of the circuit breaker, or any other. -/
inductive Interceptor where
  | circuitBreaker
  | other
  deriving DecidableEq, Repr

/-- Where the thread of a call stands. -/
inductive Phase where
  | chain (rest : List Interceptor)
  | register
  | arm
  | send
  | failing
  | waiting
  | detached
  | returned
  deriving DecidableEq, Repr

/-- How a call was completed. -/
inductive Cause where
  | invalid
  | blocked
  | timeout
  | destroyed
  | response (reqId : UInt64) (status : Status) (resp : RpcResponse)
  deriving DecidableEq

/-- The response that the promise or callback of the call gets. -/
def Cause.value : Cause → RpcResponse
  | .invalid => ⟨false, [], text "TcpClient already owned by another RpcAsyncClient"⟩
  | .blocked => ⟨false, [], text "interceptor blocked"⟩
  | .timeout => ⟨false, [], text "request timeout"⟩
  | .destroyed => ⟨false, [], text "client destroyed"⟩
  | .response _ _ resp => resp

/-- A handler that has recorded its outcome on the breaker. -/
inductive Handler where
  | timeout (reqId : UInt64)
  | response (packet : DecodedPacket)

def Handler.reqId : Handler → UInt64
  | .timeout reqId => reqId
  | .response packet => packet.reqId

def Handler.success : Handler → Bool
  | .timeout _ => false
  | .response packet => packet.networkStatus == .success

def Handler.cause : Handler → Cause
  | .timeout _ => .timeout
  | .response packet => .response packet.reqId packet.networkStatus packet.rpcResponse

/-- A call on the circuit breaker, with the call that asked or the handler that told it. -/
inductive BreakerCall where
  | allowRequest (c : CallId) (now later : Int) (verdict : Bool)
  | record (handler : Handler) (now : Int)

structure CallRecord where
  overload : Overload
  reqId : UInt64
  phase : Phase
  completions : List Cause
  returned : List Cause
  deriving DecidableEq

/-- A call that has not been made. -/
def CallRecord.none : CallRecord := ⟨.future, 0, .chain [], [], []⟩

def CallRecord.moveTo (call : CallRecord) (phase : Phase) : CallRecord :=
  { call with phase := phase }

/-- The thread of the call hands a result to the caller. -/
def CallRecord.finish (call : CallRecord) (cause : Cause) : CallRecord :=
  { call with phase := .returned, returned := cause :: call.returned }

/-- The call has passed an interceptor; the last one lets it register. -/
def CallRecord.pass (call : CallRecord) (rest : List Interceptor) : CallRecord :=
  call.moveTo (if rest.isEmpty then .register else .chain rest)

/-- A handler completes the call. -/
def CallRecord.answered (call : CallRecord) (handler : Handler) : CallRecord :=
  { call with completions := handler.cause :: call.completions }

abbrev PendingTable := AList (fun _ : UInt64 => CallId)

end Client

open Client Codec

/--
The state of an `RpcAsyncClient` and of its calls.  `timers` holds the request
ids of the armed timers and `handlers` the handlers of the loop threads that
have not taken the lock of the tables yet; `breakerCalls` are the calls on the
breaker so far, the first one first.
-/
structure RpcAsyncClient where
  invalid : Bool
  chain : List Interceptor
  circuitBreaker : Option CircuitBreaker
  nextReqId : UInt64
  pendingPromises : PendingTable
  pendingCallbacks : PendingTable
  timers : List UInt64
  handlers : List Handler
  issued : Nat
  calls : CallId → CallRecord
  breakerCalls : List BreakerCall
  destroyed : Bool
  swept : Bool

namespace RpcAsyncClient

/-- A client before its first call. -/
def new (invalid : Bool) (chain : List Interceptor)
    (circuitBreaker : Option CircuitBreaker) : RpcAsyncClient :=
  ⟨invalid, chain, circuitBreaker, 1, ∅, ∅, [], [], 0, fun _ => .none, [], false, false⟩

def setCall (s : RpcAsyncClient) (c : CallId) (record : CallRecord) : RpcAsyncClient :=
  { s with calls := Function.update s.calls c record }

/-- Complete the promise or callback of a call. -/
def complete (s : RpcAsyncClient) (c : CallId) (cause : Cause) : RpcAsyncClient :=
  s.setCall c { s.calls c with completions := cause :: (s.calls c).completions }

/-- The call whose entry a handler finds: promises are looked up first. -/
def pendingCall (s : RpcAsyncClient) (reqId : UInt64) : Option CallId :=
  (s.pendingPromises.lookup reqId).or (s.pendingCallbacks.lookup reqId)

/-- Record the outcome of a handler on the breaker, if there is one. -/
def record (s : RpcAsyncClient) (handler : Handler) (now : Int) : RpcAsyncClient :=
  { s with
    circuitBreaker := s.circuitBreaker.map fun cb =>
      if handler.success then cb.recordSuccess else cb.recordFailure now
    breakerCalls := if s.circuitBreaker.isSome then s.breakerCalls ++ [.record handler now]
      else s.breakerCalls }

/-- Complete the call that a handler found. -/
def answer (s : RpcAsyncClient) (c : CallId) (handler : Handler) : RpcAsyncClient :=
  s.setCall c ((s.calls c).answered handler)

/-- The part of a handler under the lock: take the entry out and complete it. -/
def settle (s : RpcAsyncClient) (handler : Handler) : RpcAsyncClient :=
  match s.pendingPromises.lookup handler.reqId with
  | some c =>
      { s.answer c handler with pendingPromises := s.pendingPromises.erase handler.reqId }
  | none =>
      match s.pendingCallbacks.lookup handler.reqId with
      | some c =>
          { s.answer c handler with pendingCallbacks := s.pendingCallbacks.erase handler.reqId }
      | none => s

/-- A handler on a loop thread up to the lock. -/
def handle (s : RpcAsyncClient) (handler : Handler) (now : Int) : RpcAsyncClient :=
  { s.record handler now with handlers := handler :: s.handlers }

def handleTimeout (s : RpcAsyncClient) (reqId : UInt64) (now : Int) : RpcAsyncClient :=
  if s.destroyed then s else s.handle (.timeout reqId) now

def handleResponse (s : RpcAsyncClient) (packet : DecodedPacket) (now : Int) :
    RpcAsyncClient :=
  s.handle (.response packet) now

/-- The body of the receive loop in `onMessage`. -/
def onPacket (s : RpcAsyncClient) (packet : DecodedPacket) (now : Int) : RpcAsyncClient :=
  if packet.msgType = .response then s.handleResponse packet now else s

/-- Whether a call is registered as a callback: only without an interceptor chain. -/
def usesCallback (s : RpcAsyncClient) (overload : Overload) : Bool :=
  overload == .callback && s.chain.isEmpty

/-- Where the thread of a call goes when it has dealt with its packet. -/
def afterSend (s : RpcAsyncClient) (overload : Overload) : Phase :=
  if s.usesCallback overload then .detached else .waiting

/-! ## Steps -/

/-- What happens to the packet of a call. -/
inductive Sent where
  | encodeFailed
  | sendFailed
  | sent
  deriving DecidableEq, Repr

/-- The steps of the calling threads and of the loop threads.  Clock readings,
verdicts of foreign interceptors and outcomes of sending come from outside. -/
inductive Event where
  | asyncCall (overload : Overload)
  | preHandle (c : CallId) (verdict : Bool) (now later : Int)
  | register (c : CallId)
  | arm (c : CallId) (timer : Bool)
  | send (c : CallId) (outcome : Sent) (now : Int)
  | fail (c : CallId)
  | resume (c : CallId)
  | packet (packet : DecodedPacket) (now : Int)
  | timer (reqId : UInt64) (now : Int)
  | settle (i : Nat)

/-- `asyncCall` up to the interceptor chain. -/
def asyncCall (s : RpcAsyncClient) (overload : Overload) : RpcAsyncClient :=
  if s.invalid then
    { s.setCall s.issued ⟨overload, 0, .returned, [], [.invalid]⟩ with
      issued := s.issued + 1 }
  else
    let phase := if s.chain.isEmpty then .register else .chain s.chain
    { s.setCall s.issued ⟨overload, s.nextReqId, phase, [], []⟩ with
      issued := s.issued + 1
      nextReqId := s.nextReqId + 1 }

/-- The result of the next `preHandle` of a chain, and the breaker after it. -/
def runInterceptor (s : RpcAsyncClient) (interceptor : Interceptor) (verdict : Bool)
    (now later : Int) : Bool × Option CircuitBreaker :=
  match interceptor, s.circuitBreaker with
  | .other, cb => (verdict, cb)
  | .circuitBreaker, none => (true, none)
  | .circuitBreaker, some cb =>
      let called := cb.allowRequest now later
      (called.1, some called.2)

/-- Whether the interceptor has asked the breaker. -/
def asksBreaker (s : RpcAsyncClient) (interceptor : Interceptor) : Bool :=
  interceptor == .circuitBreaker && s.circuitBreaker.isSome

/-- One round of the loop over the interceptors in `InterceptorChain::execute`. -/
def preHandle (s : RpcAsyncClient) (c : CallId) (interceptor : Interceptor)
    (rest : List Interceptor) (verdict : Bool) (now later : Int) : RpcAsyncClient :=
  let result := s.runInterceptor interceptor verdict now later
  let call := if result.1 then (s.calls c).pass rest else (s.calls c).finish .blocked
  { s.setCall c call with
    circuitBreaker := result.2
    breakerCalls :=
      if s.asksBreaker interceptor then s.breakerCalls ++ [.allowRequest c now later result.1]
      else s.breakerCalls }

/-- Enter the promise or the callback of a call into its table. -/
def register (s : RpcAsyncClient) (c : CallId) : RpcAsyncClient :=
  let call := s.calls c
  if s.usesCallback call.overload then
    { s.setCall c (call.moveTo .arm) with
      pendingCallbacks := s.pendingCallbacks.insert call.reqId c }
  else
    { s.setCall c (call.moveTo .arm) with
      pendingPromises := s.pendingPromises.insert call.reqId c }

def arm (s : RpcAsyncClient) (c : CallId) (timer : Bool) : RpcAsyncClient :=
  let call := s.calls c
  { s.setCall c (call.moveTo .send) with
    timers := if timer then call.reqId :: s.timers else s.timers }

/-- `handleTimeout` on the thread of a call that was not sent, up to the lock. -/
def failAtOnce (s : RpcAsyncClient) (c : CallId) (now : Int) : RpcAsyncClient :=
  (s.record (.timeout (s.calls c).reqId) now).setCall c ((s.calls c).moveTo .failing)

/-- Encode and send; a failure of either is handled as a timeout at once. -/
def send (s : RpcAsyncClient) (c : CallId) (outcome : Sent) (now : Int) : RpcAsyncClient :=
  let call := s.calls c
  if outcome = .sent ∨ s.destroyed then
    s.setCall c (call.moveTo (s.afterSend call.overload))
  else s.failAtOnce c now

/-- The part of `handleTimeout` under the lock, on the thread of a call that was not sent. -/
def fail (s : RpcAsyncClient) (c : CallId) : RpcAsyncClient :=
  let s := s.settle (.timeout (s.calls c).reqId)
  let call := s.calls c
  s.setCall c (call.moveTo (s.afterSend call.overload))

/-- `future.get()` returns, and the result goes to the caller. -/
def resume (s : RpcAsyncClient) (c : CallId) (cause : Cause) : RpcAsyncClient :=
  s.setCall c ((s.calls c).finish cause)

/-- One step; an event that the state does not allow is refused. -/
def step (s : RpcAsyncClient) : Event → Option RpcAsyncClient
  | .asyncCall overload => if s.destroyed then none else some (s.asyncCall overload)
  | .preHandle c verdict now later =>
      if c < s.issued then
        match (s.calls c).phase with
        | .chain (interceptor :: rest) =>
            some (s.preHandle c interceptor rest verdict now later)
        | _ => none
      else none
  | .register c =>
      if c < s.issued ∧ (s.calls c).phase = .register then some (s.register c) else none
  | .arm c timer =>
      if c < s.issued ∧ (s.calls c).phase = .arm then some (s.arm c timer) else none
  | .send c outcome now =>
      if c < s.issued ∧ (s.calls c).phase = .send then some (s.send c outcome now) else none
  | .fail c =>
      if c < s.issued ∧ (s.calls c).phase = .failing then some (s.fail c) else none
  | .resume c =>
      if c < s.issued ∧ (s.calls c).phase = .waiting then
        match (s.calls c).completions with
        | cause :: _ => some (s.resume c cause)
        | [] => none
      else none
  | .packet packet now => some (s.onPacket packet now)
  | .timer reqId now =>
      if reqId ∈ s.timers then
        some ({ s with timers := s.timers.erase reqId }.handleTimeout reqId now)
      else none
  | .settle i =>
      match s.handlers[i]? with
      | some handler => some ({ s with handlers := s.handlers.eraseIdx i }.settle handler)
      | none => none

/-- The steps that are possible in a state. -/
inductive Steps (s : RpcAsyncClient) : Event → RpcAsyncClient → Prop
  | asyncCall (alive : s.destroyed = false) (overload : Overload) :
      Steps s (.asyncCall overload) (s.asyncCall overload)
  | preHandle {c : CallId} (made : c < s.issued) {interceptor : Interceptor}
      {rest : List Interceptor} (phase : (s.calls c).phase = .chain (interceptor :: rest))
      (verdict : Bool) (now later : Int) :
      Steps s (.preHandle c verdict now later) (s.preHandle c interceptor rest verdict now later)
  | register {c : CallId} (made : c < s.issued) (phase : (s.calls c).phase = .register) :
      Steps s (.register c) (s.register c)
  | arm {c : CallId} (made : c < s.issued) (phase : (s.calls c).phase = .arm) (timer : Bool) :
      Steps s (.arm c timer) (s.arm c timer)
  | send {c : CallId} (made : c < s.issued) (phase : (s.calls c).phase = .send)
      (outcome : Sent) (now : Int) : Steps s (.send c outcome now) (s.send c outcome now)
  | fail {c : CallId} (made : c < s.issued) (phase : (s.calls c).phase = .failing) :
      Steps s (.fail c) (s.fail c)
  | resume {c : CallId} (made : c < s.issued) (phase : (s.calls c).phase = .waiting)
      {cause : Cause} {others : List Cause}
      (completed : (s.calls c).completions = cause :: others) :
      Steps s (.resume c) (s.resume c cause)
  | packet (packet : DecodedPacket) (now : Int) :
      Steps s (.packet packet now) (s.onPacket packet now)
  | timer {reqId : UInt64} (armed : reqId ∈ s.timers) (now : Int) :
      Steps s (.timer reqId now)
        ({ s with timers := s.timers.erase reqId }.handleTimeout reqId now)
  | settle {i : Nat} {handler : Handler} (waits : s.handlers[i]? = some handler) :
      Steps s (.settle i) ({ s with handlers := s.handlers.eraseIdx i }.settle handler)

theorem steps_of_step {s next : RpcAsyncClient} {event : Event}
    (taken : s.step event = some next) : s.Steps event next := by
  cases event with
  | asyncCall overload =>
      rw [step] at taken
      split at taken
      · cases taken
      · next alive =>
          cases taken
          exact .asyncCall (Bool.eq_false_iff.mpr alive) overload
  | preHandle c verdict now later =>
      rw [step] at taken
      split at taken
      · next made =>
          split at taken
          · next interceptor rest phase =>
              cases taken
              exact .preHandle made phase verdict now later
          · cases taken
      · cases taken
  | register c =>
      rw [step] at taken
      split at taken
      · next enabled =>
          cases taken
          exact .register enabled.1 enabled.2
      · cases taken
  | arm c timer =>
      rw [step] at taken
      split at taken
      · next enabled =>
          cases taken
          exact .arm enabled.1 enabled.2 timer
      · cases taken
  | send c outcome now =>
      rw [step] at taken
      split at taken
      · next enabled =>
          cases taken
          exact .send enabled.1 enabled.2 outcome now
      · cases taken
  | fail c =>
      rw [step] at taken
      split at taken
      · next enabled =>
          cases taken
          exact .fail enabled.1 enabled.2
      · cases taken
  | resume c =>
      rw [step] at taken
      split at taken
      · next enabled =>
          split at taken
          · next cause others completed =>
              cases taken
              exact .resume enabled.1 enabled.2 completed
          · cases taken
      · cases taken
  | packet packet now =>
      cases taken
      exact .packet packet now
  | timer reqId now =>
      rw [step] at taken
      split at taken
      · next armed =>
          cases taken
          exact .timer armed now
      · cases taken
  | settle i =>
      rw [step] at taken
      split at taken
      · next handler waits =>
          cases taken
          exact .settle waits
      · cases taken

/-! ## Destruction -/

/-- The loop of the destructor over one of the tables. -/
def completeAll (s : RpcAsyncClient) (entries : List (Σ _ : UInt64, CallId)) :
    RpcAsyncClient :=
  entries.foldl (fun s entry => s.complete entry.2 .destroyed) s

/-- The end of the destructor: complete everything that is pending. -/
def sweep (s : RpcAsyncClient) : RpcAsyncClient :=
  { (s.completeAll s.pendingPromises.entries).completeAll s.pendingCallbacks.entries with
    pendingPromises := ∅
    pendingCallbacks := ∅
    swept := true }

/-- No thread is inside the client other than in `future.get()`. -/
def Quiescent (s : RpcAsyncClient) : Prop :=
  ∀ c < s.issued, (s.calls c).phase ∈ [.waiting, .detached, .returned]

instance (s : RpcAsyncClient) : Decidable s.Quiescent :=
  inferInstanceAs (Decidable (∀ c < s.issued, _))

/-- The life of a client: its steps, and the two parts of its destructor, which
may only start when no call would touch the client any more. -/
inductive LifeEvent where
  | event (event : Event)
  | destroy
  | sweep

def live (s : RpcAsyncClient) : LifeEvent → Option RpcAsyncClient
  | .event event => s.step event
  | .destroy =>
      if s.Quiescent ∧ s.destroyed = false then some { s with destroyed := true } else none
  | .sweep => if s.destroyed ∧ s.swept = false then some s.sweep else none

end RpcAsyncClient

end RpcFramework
