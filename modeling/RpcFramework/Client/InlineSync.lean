import RpcFramework.Client.InlinePipeline
import RpcFramework.Lib.Mealy

/-!
# The synchronous client

`InlineSyncClient` drives its event loop from the calling thread.  One result, one
pending id and one flag serve all calls; the callbacks of the connection write them
whenever the loop runs, during a call or between calls.

What happens during a call is a sequence of moments: deliveries, and looks at the
clock.  A call returns what the first decisive moment of its sequence says, whatever
was delivered before the call and whatever the earlier calls were.
-/

namespace RpcFramework

open Codec

namespace InlineSyncClient

/-- What the loop hands to the callbacks of the connection: a decoded packet, or a change
of the connection. -/
inductive Delivery where
  | packet (packet : DecodedPacket)
  | connection (up : Bool)

/-- One round of a wait loop: the clock at the check of the deadline, and what
`loopOnce` delivers. -/
structure Round where
  now : Int
  deliveries : List Delivery

/-- How far a wait loop has come. -/
inductive LoopEnd where
  | running
  | finished
  | late
  deriving DecidableEq, Repr

/-- A `connect`: whether the address was valid, what the attempt delivers at once, the
clock behind it, and the rounds of the wait loop. -/
structure Connect where
  valid : Bool
  dialling : List Delivery
  timeoutMs : Int
  start : Int
  rounds : List Round

/-- A `call`: whether there is a connection that is up, what is delivered while the packet
is sent, the clock behind the send, and the rounds of the wait loop. -/
structure Call where
  service : Bytes
  method : Bytes
  request : RpcRequest
  timeoutMs : Int
  connected : Bool
  sending : List Delivery
  start : Int
  rounds : List Round

inductive Input where
  | deliver (delivery : Delivery)
  | connect (args : Connect)
  | call (args : Call)

/-- What an operation returns, if it has returned. -/
inductive Output where
  | nothing
  | connected (ok : Option Bool)
  | returned (response : Option RpcResponse)

end InlineSyncClient

open InlineSyncClient

structure InlineSyncClient where
  nextId : UInt64
  pendingId : UInt64
  done : Bool
  result : RpcResponse
  connectDone : Bool
  connectOk : Bool

namespace InlineSyncClient

open InlinePipelineClient (msUntil kNanosPerMs)

def initial : InlineSyncClient := ⟨1, 0, false, .cleared, false, false⟩

def connectionClosed : RpcResponse := ⟨false, [], text "connection closed"⟩

def notConnected : RpcResponse := ⟨false, [], text "not connected"⟩

def encodeFailed : RpcResponse := ⟨false, [], text "encode failed"⟩

def requestTimeout : RpcResponse := ⟨false, [], text "request timeout"⟩

def onConnection (c : InlineSyncClient) (up : Bool) : InlineSyncClient :=
  let c := { c with connectDone := true, connectOk := up }
  if up = false ∧ c.pendingId ≠ 0 ∧ c.done = false then
    { c with result := connectionClosed, done := true }
  else c

/-- The body of the receive loop in `onMessage`. -/
def onPacket (c : InlineSyncClient) (packet : DecodedPacket) : InlineSyncClient :=
  if packet.msgType ≠ .response then c
  else if packet.reqId ≠ c.pendingId ∨ c.done = true then c
  else { c with result := packet.rpcResponse, done := true }

def deliver (c : InlineSyncClient) : Delivery → InlineSyncClient
  | .packet packet => c.onPacket packet
  | .connection up => c.onConnection up

def deliverAll (c : InlineSyncClient) (deliveries : List Delivery) : InlineSyncClient :=
  deliveries.foldl deliver c

/-- The wait loop of `connect` and `call`. -/
def waitLoop (finished : InlineSyncClient → Bool) (deadline : Int) :
    List Round → InlineSyncClient → LoopEnd × InlineSyncClient
  | [], c => (if finished c then .finished else .running, c)
  | round :: rest, c =>
      if finished c then (.finished, c)
      else if msUntil deadline round.now ≤ 0 then (.late, c)
      else waitLoop finished deadline rest (c.deliverAll round.deliveries)

def Connect.deadline (args : Connect) : Int := args.start + kNanosPerMs * args.timeoutMs

def connect (c : InlineSyncClient) (args : Connect) : Option Bool × InlineSyncClient :=
  if args.valid = false then (some false, c)
  else
    let c := { c with connectDone := false, connectOk := false }
    let waited := waitLoop connectDone args.deadline args.rounds (c.deliverAll args.dialling)
    (if waited.1 = .running then none else some waited.2.connectOk, waited.2)

def Call.deadline (args : Call) : Int := args.start + kNanosPerMs * args.timeoutMs

def call (pb : Protobuf) (c : InlineSyncClient) (args : Call) :
    Option RpcResponse × InlineSyncClient :=
  if args.connected = false then (some notConnected, c)
  else
    let c := { c with
      pendingId := c.nextId
      nextId := c.nextId + 1
      done := false
      result := .cleared }
    if (encodeRequest pb args.request c.pendingId args.service args.method).isEmpty then
      (some encodeFailed, { c with pendingId := 0 })
    else
      let waited := waitLoop done args.deadline args.rounds (c.deliverAll args.sending)
      match waited.1 with
      | .running => (none, waited.2)
      | .late => (some requestTimeout, { waited.2 with pendingId := 0 })
      | .finished => (some waited.2.result, { waited.2 with pendingId := 0, result := .cleared })

def step (pb : Protobuf) (c : InlineSyncClient) : Input → Output × InlineSyncClient
  | .deliver delivery => (.nothing, c.deliver delivery)
  | .connect args => (.connected (c.connect args).1, (c.connect args).2)
  | .call args => (.returned (c.call pb args).1, (c.call pb args).2)

/-! ## What a call is to return -/

inductive Moment where
  | delivered (delivery : Delivery)
  | checked (now : Int)

def Round.moments (round : Round) : List Moment :=
  .checked round.now :: round.deliveries.map .delivered

/-- What happens between the send of the packet and the return of the call. -/
def Call.moments (args : Call) : List Moment :=
  args.sending.map .delivered ++ args.rounds.flatMap Round.moments

/-- What a moment decides for the call with the id: its response, or an error for a loss
of the connection and for a check that finds less than a millisecond left. -/
def decides (id : Nat) (deadline : Int) : Moment → Option RpcResponse
  | .delivered (.packet packet) =>
      if packet.msgType = .response ∧ packet.reqId.toNat = id then some packet.rpcResponse else none
  | .delivered (.connection true) => none
  | .delivered (.connection false) => some connectionClosed
  | .checked now => if deadline - now < kNanosPerMs then some requestTimeout else none

/-- What the call with the id returns, if it returns at all. -/
def answer (pb : Protobuf) (id : Nat) (args : Call) : Option RpcResponse :=
  if args.connected = false then some notConnected
  else if (encodeRequest pb args.request (UInt64.ofNat id) args.service args.method).isEmpty then
    some encodeFailed
  else args.moments.findSome? (decides id args.deadline)

def Input.isCall : Input → Bool
  | .call _ => true
  | _ => false

/-- The calls over a connection take ids one after another. -/
def Input.takesId : Input → Bool
  | .call args => args.connected
  | _ => false

def idBehind (inputs : List Input) : Nat := inputs.countP Input.takesId + 1

/-! ## The wait -/

/-- What has been decided so far. -/
def decided (c : InlineSyncClient) : Option RpcResponse := if c.done then some c.result else none

section Wait

variable {c : InlineSyncClient} {id : Nat}

/-- The code rounds to whole milliseconds, towards zero. -/
theorem msUntil_nonpos_iff {deadline now : Int} :
    msUntil deadline now ≤ 0 ↔ deadline - now < kNanosPerMs := by
  rw [msUntil, kNanosPerMs]
  constructor
  · intro none_left
    by_contra whole
    have rounded : (deadline - now).tdiv 1000000 = (deadline - now) / 1000000 :=
      Int.tdiv_eq_ediv_of_nonneg (by omega)
    rw [rounded] at none_left
    split at none_left
    · omega
    · split at none_left
      · omega
      · omega
  · intro less
    have rounded : (deadline - now).tdiv 1000000 ≤ 0 := by
      by_cases passed : deadline - now < 0
      · have negated : 0 ≤ (-(deadline - now)).tdiv 1000000 :=
          Int.tdiv_nonneg (by omega) (by decide)
        rw [Int.neg_tdiv] at negated
        omega
      · rw [Int.tdiv_eq_ediv_of_nonneg (by omega)]
        omega
    rw [if_pos rounded]

/-- Deliveries change no id. -/
theorem deliver_ids (c : InlineSyncClient) (delivery : Delivery) :
    (c.deliver delivery).pendingId = c.pendingId ∧ (c.deliver delivery).nextId = c.nextId := by
  cases delivery with
  | packet packet =>
      rw [deliver, onPacket]
      split
      · exact ⟨rfl, rfl⟩
      · split
        · exact ⟨rfl, rfl⟩
        · exact ⟨rfl, rfl⟩
  | connection up =>
      rw [deliver, onConnection]
      split
      · exact ⟨rfl, rfl⟩
      · exact ⟨rfl, rfl⟩

theorem deliverAll_ids (c : InlineSyncClient) (deliveries : List Delivery) :
    (c.deliverAll deliveries).pendingId = c.pendingId ∧
      (c.deliverAll deliveries).nextId = c.nextId := by
  induction deliveries generalizing c with
  | nil => exact ⟨rfl, rfl⟩
  | cons delivery rest ih =>
      obtain ⟨pending, next⟩ := ih (c.deliver delivery)
      exact ⟨pending.trans (c.deliver_ids delivery).1, next.trans (c.deliver_ids delivery).2⟩

theorem waitLoop_nextId (finished : InlineSyncClient → Bool) (deadline : Int) (rounds : List Round)
    (c : InlineSyncClient) : (waitLoop finished deadline rounds c).2.nextId = c.nextId := by
  induction rounds generalizing c with
  | nil => rfl
  | cons round rest ih =>
      rw [waitLoop]
      split
      · rfl
      · split
        · rfl
        · exact (ih _).trans (c.deliverAll_ids round.deliveries).2

/-- The first decisive delivery counts. -/
theorem decided_deliver (pending : c.pendingId.toNat = id) (nonzero : id ≠ 0) (deadline : Int)
    (delivery : Delivery) :
    (c.deliver delivery).decided = c.decided.or (decides id deadline (.delivered delivery)) := by
  have waits : c.pendingId ≠ 0 := by
    rintro zero
    rw [zero] at pending
    exact nonzero pending.symm
  cases delivery with
  | packet packet =>
      have own : packet.reqId.toNat = id ↔ packet.reqId = c.pendingId := by
        rw [← pending, UInt64.toNat_inj]
      rw [deliver, onPacket, decides]
      simp only [own]
      cases done : c.done with
      | true => simp [decided, done]
      | false =>
          by_cases kind : packet.msgType = .response
          · by_cases mine : packet.reqId = c.pendingId
            · simp [decided, done, kind, mine]
            · simp [decided, done, kind, mine]
          · simp [decided, done, kind]
  | connection up =>
      rw [deliver, onConnection]
      cases up with
      | true => simp [decided, decides]
      | false =>
          cases done : c.done with
          | true => simp [decided, decides, done]
          | false => simp [decided, decides, done, waits]

theorem decided_deliverAll (pending : c.pendingId.toNat = id) (nonzero : id ≠ 0) (deadline : Int)
    (deliveries : List Delivery) :
    (c.deliverAll deliveries).decided =
      c.decided.or ((deliveries.map .delivered).findSome? (decides id deadline)) := by
  induction deliveries generalizing c with
  | nil => exact Option.or_none.symm
  | cons delivery rest ih =>
      have next : (c.deliver delivery).pendingId.toNat = id := by
        rw [(c.deliver_ids delivery).1, pending]
      rw [deliverAll, List.foldl_cons]
      refine (ih next).trans ?_
      rw [decided_deliver pending nonzero deadline, List.map_cons, List.findSome?_cons,
        Option.or_assoc]
      cases decides id deadline (.delivered delivery) with
      | none => rfl
      | some response => rfl

/-- What a wait loop leads a call to return. -/
def LoopEnd.response : LoopEnd × InlineSyncClient → Option RpcResponse
  | (.running, _) => none
  | (.late, _) => some requestTimeout
  | (.finished, c) => some c.result

/-- The first decisive moment of the rounds counts. -/
theorem response_waitLoop (pending : c.pendingId.toNat = id) (nonzero : id ≠ 0) (deadline : Int)
    (rounds : List Round) :
    LoopEnd.response (waitLoop done deadline rounds c) =
      c.decided.or ((rounds.flatMap Round.moments).findSome? (decides id deadline)) := by
  induction rounds generalizing c with
  | nil =>
      rw [waitLoop, decided]
      cases c.done with
      | true => rfl
      | false => rfl
  | cons round rest ih =>
      have next : (c.deliverAll round.deliveries).pendingId.toNat = id := by
        rw [(c.deliverAll_ids round.deliveries).1, pending]
      rw [waitLoop, List.flatMap_cons, Round.moments, List.cons_append, List.findSome?_cons,
        decides]
      cases done : c.done with
      | true =>
          rw [if_pos rfl, decided, done]
          rfl
      | false =>
          rw [if_neg Bool.false_ne_true]
          simp only [msUntil_nonpos_iff]
          split
          · rw [decided, done]
            rfl
          · rw [ih next, decided_deliverAll pending nonzero deadline, List.findSome?_append,
              Option.or_assoc]

end Wait

/-! ## Calls -/

/-- The state in which the packet of a call is sent. -/
def entered (c : InlineSyncClient) : InlineSyncClient :=
  { c with pendingId := c.nextId, nextId := c.nextId + 1, done := false, result := .cleared }

theorem call_of_encoded {pb : Protobuf} {c : InlineSyncClient} {args : Call}
    (connected : args.connected = true)
    (encoded : (encodeRequest pb args.request c.nextId args.service args.method).isEmpty = false) :
    (c.call pb args).1 = LoopEnd.response
      (waitLoop done args.deadline args.rounds (c.entered.deliverAll args.sending)) := by
  rw [call, connected, if_neg (by decide)]
  dsimp only
  rw [encoded, if_neg Bool.false_ne_true, ← entered]
  rcases waitLoop done args.deadline args.rounds (c.entered.deliverAll args.sending) with
    ⟨_ | _ | _, waited⟩
  · rfl
  · rfl
  · rfl

/-- A call returns what the first decisive moment says. -/
theorem call_eq_answer (pb : Protobuf) {c : InlineSyncClient} {id : Nat} (small : id < 2 ^ 64)
    (nonzero : id ≠ 0) (next : c.nextId = UInt64.ofNat id) (args : Call) :
    (c.call pb args).1 = answer pb id args := by
  have own : c.entered.pendingId.toNat = id := by
    rw [entered, next]
    exact UInt64.toNat_ofNat_of_lt' small
  cases connected : args.connected with
  | false => rw [call, answer, connected, if_pos rfl, if_pos rfl]
  | true =>
      rw [answer, connected, if_neg (by decide), ← next]
      cases encoded : (encodeRequest pb args.request c.nextId args.service args.method).isEmpty with
      | true =>
          rw [call, connected, if_neg (by decide)]
          dsimp only
          rw [encoded]
          rfl
      | false =>
          have sent : (c.entered.deliverAll args.sending).pendingId.toNat = id := by
            rw [(c.entered.deliverAll_ids args.sending).1, own]
          rw [call_of_encoded connected encoded, response_waitLoop sent nonzero,
            decided_deliverAll own nonzero args.deadline, if_neg Bool.false_ne_true, Call.moments,
            List.findSome?_append]
          rfl

theorem nextId_call (pb : Protobuf) (c : InlineSyncClient) (args : Call) :
    (c.call pb args).2.nextId = if args.connected then c.nextId + 1 else c.nextId := by
  cases connected : args.connected with
  | false => rw [call, connected, if_pos rfl, if_neg Bool.false_ne_true]
  | true =>
      have waited : (waitLoop done args.deadline args.rounds
          (c.entered.deliverAll args.sending)).2.nextId = c.nextId + 1 := by
        rw [waitLoop_nextId, (c.entered.deliverAll_ids args.sending).2, entered]
      rw [call, connected, if_neg (by decide), if_pos rfl]
      dsimp only
      split
      · rfl
      · rw [← entered]
        split
        · exact waited
        · exact waited
        · exact waited

theorem nextId_connect (c : InlineSyncClient) (args : Connect) :
    (c.connect args).2.nextId = c.nextId := by
  rw [connect]
  split
  · rfl
  · dsimp only
    rw [waitLoop_nextId, (deliverAll_ids _ args.dialling).2]

/-- The counter has gone past the ids of the calls so far. -/
theorem nextId_run (pb : Protobuf) (inputs : List Input) :
    (Mealy.run (step pb) initial inputs).nextId = UInt64.ofNat (idBehind inputs) := by
  induction inputs using List.reverseRecOn with
  | nil => rfl
  | append_singleton inputs input ih =>
      rw [Mealy.run_append, idBehind, List.countP_append, Nat.add_right_comm, ← idBehind]
      change (step pb (Mealy.run (step pb) initial inputs) input).2.nextId = _
      cases input with
      | deliver delivery => exact (deliver_ids _ delivery).2.trans ih
      | connect args => exact (nextId_connect _ args).trans ih
      | call args =>
          rw [step, nextId_call, ih]
          cases connected : args.connected with
          | false => simp [Input.takesId, connected]
          | true => simp [Input.takesId, connected, UInt64.ofNat_add]

theorem idBehind_le (inputs : List Input) : idBehind inputs ≤ inputs.countP Input.isCall + 1 := by
  refine Nat.succ_le_succ (List.countP_mono_left ?_)
  intro input _ takes
  cases input with
  | call args => rfl
  | deliver delivery => cases takes
  | connect args => cases takes

/-- A call has returned at the latest when a check finds less than a millisecond left. -/
theorem answer_isSome_of_late (pb : Protobuf) (id : Nat) {args : Call} {round : Round}
    (member : round ∈ args.rounds) (late : args.deadline - round.now < kNanosPerMs) :
    (answer pb id args).isSome = true := by
  have checked : .checked round.now ∈ args.moments := by
    refine List.mem_append_right _ (List.mem_flatMap.mpr ⟨round, member, ?_⟩)
    exact List.mem_cons_self ..
  rw [answer]
  split
  · rfl
  · split
    · rfl
    · refine List.findSome?_isSome_iff.mpr ⟨.checked round.now, checked, ?_⟩
      rw [decides, if_pos late]
      rfl

/--
Whatever was called and delivered before, a call returns what the first decisive moment
between its send and its return says: the response that carries the id of the call, or an
error for a loss of the connection or a check with less than a millisecond left before the
deadline; a call without a connection and one whose request cannot be encoded return an
error at once.  Such a check always ends the call.
-/
theorem call_never_stale (pb : Protobuf) {earlier : List Input} {args : Call} {later : List Input}
    (few : (earlier ++ .call args :: later).countP Input.isCall < 2 ^ 64) :
    (step pb (Mealy.run (step pb) initial earlier) (.call args)).1 =
        .returned (answer pb (idBehind earlier) args) ∧
      ∀ round ∈ args.rounds, args.deadline - round.now < kNanosPerMs →
        (answer pb (idBehind earlier) args).isSome = true := by
  have small : idBehind earlier < 2 ^ 64 := by
    have bound := idBehind_le earlier
    rw [List.countP_append, List.countP_cons_of_pos rfl] at few
    omega
  refine ⟨?_, fun round member late => answer_isSome_of_late pb _ member late⟩
  rw [step, call_eq_answer pb small (Nat.succ_ne_zero _) (nextId_run pb earlier)]

def sampleResponse (reqId : UInt64) (payload : UInt8) : Delivery :=
  .packet { DecodedPacket.fresh .response reqId with rpcResponse := ⟨true, [payload], []⟩ }

/-- A call that is not answered within its ten milliseconds. -/
def unansweredCall : Call :=
  ⟨text "Echo", text "echo", .cleared, 10, true, [], 0, [⟨0, []⟩, ⟨10000000, []⟩]⟩

/-- A call during which the answer to the call before it comes first. -/
def nextCall : Call :=
  ⟨text "Echo", text "echo", .cleared, 10, true, [], 20000000,
    [⟨20000000, [sampleResponse 1 1, sampleResponse 2 2, sampleResponse 2 3]⟩]⟩

theorem call_never_stale_nextCall :
    (step Wire.wireProtobuf (Mealy.run (step Wire.wireProtobuf) initial [.call unansweredCall])
      (.call nextCall)).1 = .returned (some ⟨true, [2], []⟩) := by
  have returned :=
    @call_never_stale Wire.wireProtobuf [.call unansweredCall] nextCall [] (by decide)
  exact returned.1.trans (congrArg Output.returned (by decide +kernel))

end InlineSyncClient

end RpcFramework
