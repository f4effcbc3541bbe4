import Mathlib.Data.List.Count
import RpcFramework.Codec.Decode
import RpcFramework.Codec.Encode
import RpcFramework.Lib.StepRun
import RpcFramework.Protocol.Wire

/-!
# The pipelining client

`InlinePipelineClient` keeps the requests that it has sent in one table.  A
response takes its request out of the table and runs its callback; when the loop
has returned, `sweepTimeouts` takes out all requests that are past their deadline
and then runs their callbacks one by one.  A callback may submit further requests.

The client is a transition system whose steps lie between the callbacks, so that
`submit` may come while a callback runs.  The history holds the requests that
were accepted, the completions, and what each `pumpOnce` returned together with
the number of completions during it.
-/

namespace RpcFramework

open StepRun Codec

namespace InlinePipelineClient

/-- An entry of `pending_`; `cb` tells whether the callback is set, and `call` is
the number of the accepted `submit`.  The clock counts nanoseconds. -/
structure Pending where
  id : UInt64
  sentAt : Int
  deadline : Int
  cb : Bool
  call : Nat
  deriving DecidableEq, Repr

inductive Cause where
  | response (packet : DecodedPacket)
  | timeout (now : Int)

/-- A request that was taken out, and the arguments of its callback. -/
structure Completion where
  entry : Pending
  cause : Cause
  response : RpcResponse
  latency : Int

/-- Where `pumpOnce` stands; a callback runs inside `onMessage` or inside the sweep. -/
inductive Phase where
  | idle
  | receiving (waitMs : Int)
  | receivingCallback (waitMs : Int)
  | sweeping (expired : List Pending) (now : Int)
  | sweepingCallback (expired : List Pending) (now : Int)
  deriving DecidableEq, Repr

/-- The requests that a running sweep has taken out and not completed yet. -/
def Phase.expired : Phase → List Pending
  | .sweeping expired _ => expired
  | .sweepingCallback expired _ => expired
  | _ => []

/-- The arguments of `submit`, whether there is a connection, and the clock. -/
structure Submit where
  service : Bytes
  method : Bytes
  request : RpcRequest
  timeoutMs : Int
  cb : Bool
  connected : Bool
  now : Int

inductive Event where
  | submit (args : Submit)
  | pumpOnce (now : Int)
  | packet (packet : DecodedPacket) (now : Int)
  | callbackReturns
  | loopOnceReturns (now : Int)
  | nextExpired
  | pumpOnceReturns

end InlinePipelineClient

open InlinePipelineClient

structure InlinePipelineClient where
  pending : List Pending
  nextId : UInt64
  completions : Int32
  phase : Phase
  sent : List Bytes
  accepted : List Pending
  completed : List Completion
  completedBefore : Nat
  returned : List (Int32 × Nat)

namespace InlinePipelineClient

def initial : InlinePipelineClient := ⟨[], 1, 0, .idle, [], [], [], 0, []⟩

def kNanosPerMs : Int := 1000000

def makeTimeoutResponse : RpcResponse := ⟨false, [], text "request timeout"⟩

def msUntil (deadline now : Int) : Int :=
  let remain := (deadline - now).tdiv kNanosPerMs
  if remain ≤ 0 then 0 else if remain > 3600 * 1000 then 3600 * 1000 else remain

/-- The earliest deadline, from `time_point::max()` down. -/
def nextWaitMs (c : InlinePipelineClient) (now : Int) : Int :=
  if c.pending = [] then 1000
  else
    let earliest := c.pending.foldl
      (fun earliest p => if p.deadline < earliest then p.deadline else earliest) (2 ^ 63 - 1)
    msUntil earliest now

/-- `unordered_map::emplace` does nothing if the key is there. -/
def emplace (pending : List Pending) (p : Pending) : List Pending :=
  if pending.any fun other => other.id == p.id then pending else pending ++ [p]

def submit (pb : Protobuf) (c : InlinePipelineClient) (args : Submit) :
    Bool × InlinePipelineClient :=
  if args.connected = false then (false, c)
  else
    let id := c.nextId
    let c := { c with nextId := c.nextId + 1 }
    let packet := encodeRequest pb args.request id args.service args.method
    if packet.isEmpty then (false, c)
    else
      let timeoutMs := if args.timeoutMs > 0 then args.timeoutMs else 3000
      let p : Pending :=
        ⟨id, args.now, args.now + kNanosPerMs * timeoutMs, args.cb, c.accepted.length⟩
      (true, { c with
        pending := emplace c.pending p
        sent := c.sent ++ [packet]
        accepted := c.accepted ++ [p] })

/-- Run the callback of a request that was taken out, if it is set, and count it
when the callback has returned. -/
def complete (c : InlinePipelineClient) (p : Pending) (cause : Cause) (response : RpcResponse)
    (now : Int) (running : Phase) : InlinePipelineClient :=
  let completion : Completion := ⟨p, cause, response, now - p.sentAt⟩
  let c := { c with completed := c.completed ++ [completion] }
  if p.cb then { c with phase := running } else { c with completions := c.completions + 1 }

/-- The body of the receive loop in `onMessage`. -/
def onPacket (c : InlinePipelineClient) (packet : DecodedPacket) (now : Int) (waitMs : Int) :
    InlinePipelineClient :=
  if packet.msgType ≠ .response then c
  else
    match c.pending.find? fun p => p.id == packet.reqId with
    | none => c
    | some p =>
        let c := { c with pending := c.pending.eraseP fun p => p.id == packet.reqId }
        c.complete p (.response packet) packet.rpcResponse now (.receivingCallback waitMs)

/-- The first loop of `sweepTimeouts`. -/
def sweepTimeouts (c : InlinePipelineClient) (now : Int) : InlinePipelineClient :=
  if c.pending = [] then { c with phase := .sweeping [] now }
  else
    { c with
      pending := c.pending.filter fun p => !decide (p.deadline ≤ now)
      phase := .sweeping (c.pending.filter fun p => decide (p.deadline ≤ now)) now }

/-- The body of the second loop of `sweepTimeouts`. -/
def expire (c : InlinePipelineClient) (p : Pending) (rest : List Pending) (now : Int) :
    InlinePipelineClient :=
  { c with phase := .sweeping rest now }.complete p (.timeout now) makeTimeoutResponse now
    (.sweepingCallback rest now)

def step (pb : Protobuf) (c : InlinePipelineClient) (event : Event) :
    Option InlinePipelineClient :=
  match event, c.phase with
  | .submit args, .idle => some (c.submit pb args).2
  | .submit args, .receivingCallback _ => some (c.submit pb args).2
  | .submit args, .sweepingCallback _ _ => some (c.submit pb args).2
  | .pumpOnce now, .idle => some { c with
      completions := 0
      completedBefore := c.completed.length
      phase := .receiving (c.nextWaitMs now) }
  | .packet packet now, .receiving waitMs => some (c.onPacket packet now waitMs)
  | .callbackReturns, .receivingCallback waitMs => some { c with
      completions := c.completions + 1
      phase := .receiving waitMs }
  | .callbackReturns, .sweepingCallback expired now => some { c with
      completions := c.completions + 1
      phase := .sweeping expired now }
  | .loopOnceReturns now, .receiving _ => some (c.sweepTimeouts now)
  | .nextExpired, .sweeping (p :: rest) now => some (c.expire p rest now)
  | .pumpOnceReturns, .sweeping [] _ => some { c with
      returned := c.returned ++ [(c.completions, c.completed.length - c.completedBefore)]
      completions := 0
      phase := .idle }
  | _, _ => none

/-! ## Exactly once -/

/-- A completion comes from a response with the id of the request, or from a sweep
at or past its deadline. -/
def Completion.Justified (completion : Completion) : Prop :=
  match completion.cause with
  | .response packet => packet.msgType = .response ∧ packet.reqId = completion.entry.id ∧
      completion.response = packet.rpcResponse
  | .timeout now => completion.entry.deadline ≤ now ∧ completion.response = makeTimeoutResponse

/-- What the client promises: an accepted request is pending, or in the hands of
the running sweep, or was completed, and only one of these, once; completions are
justified and of accepted requests; and `pumpOnce` has returned the number of
completions, as long as an `int` holds it. -/
structure ExactlyOnce (c : InlinePipelineClient) : Prop where
  once : ∀ p ∈ c.accepted, c.pending.count p + c.phase.expired.count p +
    (c.completed.map Completion.entry).count p = 1
  accepted : ∀ completion ∈ c.completed, completion.entry ∈ c.accepted
  justified : ∀ completion ∈ c.completed, completion.Justified
  size : c.pending.length + c.phase.expired.length + c.completed.length = c.accepted.length
  returned : ∀ pumped ∈ c.returned, pumped.2 < 2 ^ 31 → pumped.1.toInt = pumped.2

/-- An accepted request gets an id that no pending request has. -/
def FreshId (pb : Protobuf) (c : InlinePipelineClient) : Event → Prop
  | .submit args => (c.submit pb args).1 = true → ∀ p ∈ c.pending, p.id ≠ c.nextId
  | _ => True

/-! ## The invariant -/

def Phase.inCallback : Phase → Bool
  | .receivingCallback _ => true
  | .sweepingCallback _ _ => true
  | _ => false

/-- The requests of a sweep are past their deadline. -/
def Phase.Due : Phase → Prop
  | .sweeping expired now => ∀ p ∈ expired, p.deadline ≤ now
  | .sweepingCallback expired now => ∀ p ∈ expired, p.deadline ≤ now
  | _ => True

/-- Every accepted request is in one place, where `held` was taken out and is to
be completed; completions are counted when their callback has returned. -/
structure Inv (c : InlinePipelineClient) (held : List Pending) : Prop where
  places : ∀ p, c.accepted.count p = c.pending.count p + c.phase.expired.count p +
    (c.completed.map Completion.entry).count p + held.count p
  numbered : c.accepted.map Pending.call = List.range c.accepted.length
  justified : ∀ completion ∈ c.completed, completion.Justified
  due : c.phase.Due
  tally : c.phase ≠ .idle → ∃ counted, c.completions = Int32.ofNat counted ∧
    c.completed.length = c.completedBefore + counted + if c.phase.inCallback then 1 else 0
  returned : ∀ pumped ∈ c.returned, pumped.1 = Int32.ofNat pumped.2

/-- Taking out the first match leaves the rest. -/
theorem count_eraseP {l : List Pending} {test : Pending → Bool} {p : Pending}
    (found : l.find? test = some p) (q : Pending) :
    l.count q = (l.eraseP test).count q + [p].count q := by
  obtain ⟨matched, before, after, rfl, unmatched⟩ := List.find?_eq_some_iff_append.mp found
  have others : ∀ other ∈ before, ¬ test other = true := by
    simpa using unmatched
  rw [List.eraseP_append_right _ others, List.eraseP_cons_of_pos matched, List.count_append,
    List.count_append, List.count_cons, List.count_singleton]
  omega

theorem count_filter_add (test : Pending → Bool) (l : List Pending) (q : Pending) :
    l.count q = (l.filter fun p => !test p).count q + (l.filter test).count q := by
  rw [← (List.filter_append_perm test l).count_eq q, List.count_append, Nat.add_comm]

section Steps

variable {c : InlinePipelineClient}

theorem Inv.complete {p : Pending} {cause : Cause} {response : RpcResponse} {now : Int}
    {running : Phase} (inv : c.Inv [p])
    (justified : Completion.Justified ⟨p, cause, response, now - p.sentAt⟩)
    (active : c.phase ≠ .idle) (quiet : c.phase.inCallback = false)
    (runs : running.inCallback = true) (same : running.expired = c.phase.expired)
    (due : running.Due) : (c.complete p cause response now running).Inv [] := by
  have all : ∀ completion ∈ c.completed ++ [⟨p, cause, response, now - p.sentAt⟩],
      completion.Justified := by
    intro completion member
    rcases List.mem_append.mp member with earlier | last
    · exact inv.justified completion earlier
    · rw [List.mem_singleton.mp last]
      exact justified
  have places : ∀ q, c.accepted.count q = c.pending.count q + c.phase.expired.count q +
      (List.map Completion.entry (c.completed ++ [⟨p, cause, response, now - p.sentAt⟩])).count q +
      [].count q := by
    intro q
    rw [inv.places q, List.map_append, List.count_append, List.count_nil]
    simp only [List.map_cons, List.map_nil]
    omega
  obtain ⟨counted, completions, length⟩ := inv.tally active
  rw [quiet, if_neg Bool.false_ne_true] at length
  unfold InlinePipelineClient.complete
  dsimp only
  split
  · refine ⟨?_, inv.numbered, all, due, fun _ => ⟨counted, completions, ?_⟩, inv.returned⟩
    · dsimp only
      rw [same]
      exact places
    · dsimp only
      rw [runs, if_pos rfl, List.length_append, length]
      rfl
  · refine ⟨places, inv.numbered, all, inv.due, fun _ => ⟨counted + 1, ?_, ?_⟩, inv.returned⟩
    · dsimp only
      rw [completions, Int32.ofNat_add]
      rfl
    · dsimp only
      rw [quiet, if_neg Bool.false_ne_true, List.length_append, length]
      rfl

theorem emplace_of_fresh {pending : List Pending} {p : Pending}
    (fresh : ∀ other ∈ pending, other.id ≠ p.id) : emplace pending p = pending ++ [p] := by
  refine if_neg fun present => ?_
  obtain ⟨other, member, same⟩ := List.any_eq_true.mp present
  exact fresh other member (eq_of_beq same)

/-- A refused submit may use an id up; an accepted one is recorded. -/
inductive Submitted (c : InlinePipelineClient) : Bool × InlinePipelineClient → Prop
  | refused {nextId : UInt64} (used : nextId = c.nextId ∨ nextId = c.nextId + 1) :
      Submitted c (false, { c with nextId := nextId })
  | accepted (p : Pending) (packet : Bytes) (id : p.id = c.nextId)
      (call : p.call = c.accepted.length) :
      Submitted c (true, { c with
        nextId := c.nextId + 1
        pending := emplace c.pending p
        sent := c.sent ++ [packet]
        accepted := c.accepted ++ [p] })

theorem submit_submitted (pb : Protobuf) (c : InlinePipelineClient) (args : Submit) :
    c.Submitted (c.submit pb args) := by
  unfold InlinePipelineClient.submit
  split
  · exact .refused (Or.inl rfl)
  · dsimp only
    split
    · exact .refused (Or.inr rfl)
    · exact .accepted _ _ rfl rfl

theorem Inv.submit {pb : Protobuf} {args : Submit} (inv : c.Inv [])
    (fresh : (c.submit pb args).1 = true → ∀ p ∈ c.pending, p.id ≠ c.nextId) :
    (c.submit pb args).2.Inv [] := by
  have submitted := submit_submitted pb c args
  generalize c.submit pb args = result at submitted fresh ⊢
  cases submitted with
  | refused used =>
      exact ⟨inv.places, inv.numbered, inv.justified, inv.due, inv.tally, inv.returned⟩
  | accepted p packet id call =>
      have unused : ∀ other ∈ c.pending, other.id ≠ p.id := by
        rw [id]
        exact fresh rfl
      refine ⟨?_, ?_, inv.justified, inv.due, inv.tally, inv.returned⟩
      · intro q
        have place := inv.places q
        dsimp only
        rw [emplace_of_fresh unused, List.count_append, List.count_append, place]
        omega
      · dsimp only
        rw [List.map_append, inv.numbered, List.length_append, List.length_singleton,
          List.range_succ, List.map_singleton, call]

theorem Inv.onPacket {packet : DecodedPacket} {now waitMs : Int} (inv : c.Inv [])
    (receiving : c.phase = .receiving waitMs) : (c.onPacket packet now waitMs).Inv [] := by
  unfold InlinePipelineClient.onPacket
  split
  · exact inv
  · next kind =>
      have kind := Classical.not_not.mp kind
      split
      · exact inv
      · next p found =>
          have matched := List.find?_some found
          have active : c.phase ≠ .idle := by
            rw [receiving]
            exact nofun
          have taken : { c with
              pending := c.pending.eraseP fun p => p.id == packet.reqId }.Inv [p] := by
            refine ⟨?_, inv.numbered, inv.justified, inv.due, inv.tally, inv.returned⟩
            intro q
            have place := inv.places q
            have erased := count_eraseP found q
            rw [List.count_nil] at place
            dsimp only
            omega
          have quiet : c.phase.inCallback = false := by
            rw [receiving]
            rfl
          have nothing : [] = c.phase.expired := by
            rw [receiving]
            rfl
          exact taken.complete ⟨kind, (eq_of_beq matched).symm, rfl⟩ active quiet rfl nothing trivial

theorem Inv.sweepTimeouts {now waitMs : Int} (inv : c.Inv [])
    (receiving : c.phase = .receiving waitMs) : (c.sweepTimeouts now).Inv [] := by
  have nothing : c.phase.expired = [] := by
    rw [receiving]
    rfl
  obtain ⟨counted, completions, length⟩ := inv.tally (by rw [receiving]; exact nofun)
  have quiet : c.phase.inCallback = false := by
    rw [receiving]
    rfl
  rw [quiet] at length
  unfold InlinePipelineClient.sweepTimeouts
  split
  · refine ⟨?_, inv.numbered, inv.justified, nofun, fun _ => ⟨counted, completions, length⟩,
      inv.returned⟩
    intro q
    have place := inv.places q
    rw [nothing] at place
    exact place
  · refine ⟨?_, inv.numbered, inv.justified, ?_, fun _ => ⟨counted, completions, length⟩,
      inv.returned⟩
    · intro q
      have place := inv.places q
      have parts := count_filter_add (fun p => decide (p.deadline ≤ now)) c.pending q
      rw [nothing] at place
      dsimp only [Phase.expired]
      rw [place, parts, List.count_nil]
      omega
    · intro p expired
      exact of_decide_eq_true (List.mem_filter.mp expired).2

theorem Inv.expire {p : Pending} {rest : List Pending} {now : Int} (inv : c.Inv [])
    (sweeping : c.phase = .sweeping (p :: rest) now) : (c.expire p rest now).Inv [] := by
  have due := inv.due
  have tally := inv.tally
  have places := inv.places
  rw [sweeping] at due tally places
  have late : ∀ q ∈ rest, q.deadline ≤ now := fun q member =>
    due q (List.mem_cons_of_mem _ member)
  have taken : { c with phase := .sweeping rest now }.Inv [p] := by
    refine ⟨?_, inv.numbered, inv.justified, late, fun _ => tally nofun, inv.returned⟩
    intro q
    have place := places q
    dsimp only [Phase.expired] at place ⊢
    rw [List.count_cons, List.count_nil] at place
    rw [List.count_singleton]
    omega
  exact taken.complete ⟨due p (List.mem_cons_self ..), rfl⟩ nofun rfl rfl rfl late

/-- A completion is counted when its callback returns. -/
theorem Inv.callbackReturns {phase : Phase} (inv : c.Inv []) (running : c.phase.inCallback = true)
    (quiet : phase.inCallback = false) (same : phase.expired = c.phase.expired)
    (due : phase.Due) :
    { c with completions := c.completions + 1, phase := phase }.Inv [] := by
  have active : c.phase ≠ .idle := by
    intro idle
    rw [idle] at running
    cases running
  obtain ⟨counted, completions, length⟩ := inv.tally active
  refine ⟨?_, inv.numbered, inv.justified, due, fun _ => ⟨counted + 1, ?_, ?_⟩, inv.returned⟩
  · intro q
    dsimp only
    rw [same]
    exact inv.places q
  · dsimp only
    rw [completions, Int32.ofNat_add]
    rfl
  · dsimp only
    rw [quiet, length, running]
    rfl

theorem Inv.step {pb : Protobuf} {event : Event} {next : InlinePipelineClient} (inv : c.Inv [])
    (fresh : c.FreshId pb event) (taken : c.step pb event = some next) : next.Inv [] := by
  have places := inv.places
  have due := inv.due
  have tally := inv.tally
  unfold InlinePipelineClient.step at taken
  split at taken
  · cases taken
    exact inv.submit fresh
  · cases taken
    exact inv.submit fresh
  · cases taken
    exact inv.submit fresh
  · next now idle =>
      cases taken
      rw [idle] at places
      exact ⟨places, inv.numbered, inv.justified, trivial, fun _ => ⟨0, rfl, rfl⟩, inv.returned⟩
  · next packet now waitMs receiving =>
      cases taken
      exact inv.onPacket receiving
  · next waitMs running =>
      cases taken
      exact inv.callbackReturns (by rw [running]; rfl) rfl (by rw [running]; rfl) trivial
  · next expired now running =>
      cases taken
      rw [running] at due
      exact inv.callbackReturns (by rw [running]; rfl) rfl (by rw [running]; rfl) due
  · next now waitMs receiving =>
      cases taken
      exact inv.sweepTimeouts receiving
  · next p rest now sweeping =>
      cases taken
      exact inv.expire sweeping
  · next now swept =>
      cases taken
      rw [swept] at places tally
      obtain ⟨counted, completions, length⟩ := tally nofun
      refine ⟨places, inv.numbered, inv.justified, trivial, fun busy => absurd rfl busy, ?_⟩
      intro pumped member
      rcases List.mem_append.mp member with earlier | last
      · exact inv.returned pumped earlier
      · rw [List.mem_singleton.mp last, completions, length]
        exact congrArg Int32.ofNat (Nat.add_sub_cancel_left ..).symm
  · cases taken

theorem Inv.exactlyOnce (inv : c.Inv []) : c.ExactlyOnce := by
  have distinct : c.accepted.Nodup := by
    apply List.Nodup.of_map Pending.call
    rw [inv.numbered]
    exact List.nodup_range
  have permuted : c.accepted.Perm
      (c.pending ++ c.phase.expired ++ c.completed.map Completion.entry) := by
    apply List.perm_iff_count.mpr
    intro p
    rw [List.count_append, List.count_append]
    exact inv.places p
  refine ⟨?_, ?_, inv.justified, ?_, ?_⟩
  · intro p member
    rw [← List.count_eq_one_of_mem distinct member]
    exact (inv.places p).symm
  · intro completion member
    apply permuted.mem_iff.mpr
    exact List.mem_append_right _ (List.mem_map_of_mem member)
  · have sizes := permuted.length_eq
    rw [List.length_append, List.length_append, List.length_map] at sizes
    exact sizes.symm
  · intro pumped member few
    rw [inv.returned pumped member]
    exact Int32.toInt_ofNat_of_lt few

end Steps

/-! ## Fresh ids -/

def Event.isSubmit : Event → Bool
  | .submit _ => true
  | _ => false

/-- The ids come from a counter that has counted so many of them. -/
structure Issued (c : InlinePipelineClient) (issued : Nat) : Prop where
  next : c.nextId = UInt64.ofNat (issued + 1)
  ids : ∀ p ∈ c.pending, ∃ earlier < issued, p.id = UInt64.ofNat (earlier + 1)

section Ids

variable {c : InlinePipelineClient} {issued : Nat}

theorem Issued.fresh (ids : c.Issued issued) (few : issued < 2 ^ 64) :
    ∀ p ∈ c.pending, p.id ≠ c.nextId := by
  intro p member same
  obtain ⟨earlier, before, id⟩ := ids.ids p member
  rw [id, ids.next] at same
  have numbers := congrArg UInt64.toNat same
  rw [UInt64.toNat_ofNat', UInt64.toNat_ofNat'] at numbers
  omega

theorem Issued.submit {pb : Protobuf} {args : Submit} (ids : c.Issued issued) :
    ∃ count, count ≤ issued + 1 ∧ (c.submit pb args).2.Issued count := by
  have later : c.nextId + 1 = UInt64.ofNat (issued + 1 + 1) := by
    rw [ids.next, UInt64.ofNat_add (issued + 1)]
    rfl
  have older : ∀ p ∈ c.pending, ∃ earlier < issued + 1, p.id = UInt64.ofNat (earlier + 1) := by
    intro p member
    obtain ⟨earlier, before, id⟩ := ids.ids p member
    exact ⟨earlier, Nat.lt_succ_of_lt before, id⟩
  have submitted := submit_submitted pb c args
  generalize c.submit pb args = result at submitted ⊢
  cases submitted with
  | refused used =>
      rcases used with rfl | rfl
      · exact ⟨issued, Nat.le_succ _, ids.next, ids.ids⟩
      · exact ⟨issued + 1, Nat.le_refl _, later, older⟩
  | accepted p packet id call =>
      refine ⟨issued + 1, Nat.le_refl _, later, ?_⟩
      intro other member
      dsimp only [emplace] at member
      split at member
      · exact older other member
      · rcases List.mem_append.mp member with old | new
        · exact older other old
        · rw [List.mem_singleton.mp new]
          exact ⟨issued, Nat.lt_succ_self _, id.trans ids.next⟩

theorem complete_keeps (c : InlinePipelineClient) (p : Pending) (cause : Cause)
    (response : RpcResponse) (now : Int) (running : Phase) :
    (c.complete p cause response now running).nextId = c.nextId ∧
      (c.complete p cause response now running).pending = c.pending := by
  unfold InlinePipelineClient.complete
  dsimp only
  split
  · exact ⟨rfl, rfl⟩
  · exact ⟨rfl, rfl⟩

/-- Only `submit` gives out ids and adds entries. -/
theorem step_keeps {pb : Protobuf} {event : Event} {next : InlinePipelineClient}
    (other : event.isSubmit = false) (taken : c.step pb event = some next) :
    next.nextId = c.nextId ∧ ∀ p ∈ next.pending, p ∈ c.pending := by
  unfold InlinePipelineClient.step at taken
  split at taken
  · cases other
  · cases other
  · cases other
  · cases taken
    exact ⟨rfl, fun _ member => member⟩
  · next packet now waitMs receiving =>
      cases taken
      unfold InlinePipelineClient.onPacket
      split
      · exact ⟨rfl, fun _ member => member⟩
      · split
        · exact ⟨rfl, fun _ member => member⟩
        · next p found =>
            obtain ⟨sameId, samePending⟩ := complete_keeps
              { c with pending := c.pending.eraseP fun p => p.id == packet.reqId } p
              (.response packet) packet.rpcResponse now (.receivingCallback waitMs)
            refine ⟨sameId, fun q member => ?_⟩
            rw [samePending] at member
            exact List.mem_of_mem_eraseP member
  · cases taken
    exact ⟨rfl, fun _ member => member⟩
  · cases taken
    exact ⟨rfl, fun _ member => member⟩
  · cases taken
    unfold InlinePipelineClient.sweepTimeouts
    split
    · exact ⟨rfl, fun _ member => member⟩
    · exact ⟨rfl, fun _ member => (List.mem_filter.mp member).1⟩
  · next p rest now sweeping =>
      cases taken
      obtain ⟨sameId, samePending⟩ := complete_keeps { c with phase := .sweeping rest now } p
        (.timeout now) makeTimeoutResponse now (.sweepingCallback rest now)
      refine ⟨sameId, fun q member => ?_⟩
      rw [expire, samePending] at member
      exact member
  · cases taken
    exact ⟨rfl, fun _ member => member⟩
  · cases taken

theorem step_submit {pb : Protobuf} {args : Submit} {next : InlinePipelineClient}
    (taken : c.step pb (.submit args) = some next) : (c.submit pb args).2 = next := by
  unfold InlinePipelineClient.step at taken
  cases stands : c.phase with
  | idle | receivingCallback _ | sweepingCallback _ _ =>
      rw [stands] at taken
      exact Option.some.inj taken
  | receiving _ | sweeping _ _ =>
      rw [stands] at taken
      cases taken

theorem Issued.step {pb : Protobuf} {event : Event} {next : InlinePipelineClient}
    (ids : c.Issued issued) (taken : c.step pb event = some next) :
    ∃ count, count ≤ issued + (if event.isSubmit then 1 else 0) ∧ next.Issued count := by
  cases kind : event.isSubmit with
  | false =>
      obtain ⟨same, older⟩ := step_keeps kind taken
      exact ⟨issued, Nat.le_refl _, same.trans ids.next, fun p member => ids.ids p (older p member)⟩
  | true =>
      cases event with
      | submit args =>
          rw [← step_submit taken]
          exact ids.submit
      | _ => cases kind

/-- The ids of `2 ^ 64` submits are fresh. -/
theorem Issued.along {pb : Protobuf} {events : List Event} (ids : c.Issued issued)
    (few : issued + events.countP Event.isSubmit ≤ 2 ^ 64) :
    Along (InlinePipelineClient.step pb) (FreshId pb) c events := by
  induction events generalizing c issued with
  | nil => trivial
  | cons event rest ih =>
      rw [List.countP_cons] at few
      refine ⟨?_, ?_⟩
      · cases event with
        | submit args =>
            intro _
            have one : (if Event.isSubmit (.submit args) = true then 1 else 0) = 1 := rfl
            rw [one] at few
            exact ids.fresh (by omega)
        | _ => trivial
      · intro next taken
        obtain ⟨count, bounded, after⟩ := ids.step taken
        exact ih after (by omega)

end Ids

theorem inv_initial : initial.Inv [] :=
  ⟨fun _ => rfl, rfl, List.forall_mem_nil _, trivial, fun busy => absurd rfl busy,
    List.forall_mem_nil _⟩

theorem issued_initial : initial.Issued 0 := ⟨rfl, List.forall_mem_nil _⟩

/--
Every request that `submit` has accepted is completed exactly once, by a response
with its id or by a sweep at or past its deadline, and `pumpOnce` returns the
number of completions, provided that no request is given the id of one that is
still pending.
-/
theorem submits_completed_exactly_once {pb : Protobuf} {events : List Event}
    {final : InlinePipelineClient} (fresh : Along (step pb) (FreshId pb) initial events)
    (reached : run? (step pb) initial events = some final) : final.ExactlyOnce := by
  have kept : ∀ (c : InlinePipelineClient) event next, c.Inv [] → c.FreshId pb event →
      c.step pb event = some next → next.Inv [] :=
    fun _ _ _ inv unused taken => inv.step unused taken
  exact (run?_invariant_along kept inv_initial fresh reached).exactlyOnce

/-- A request with a callback that may take a second. -/
def sampleSubmit (now : Int) : Submit := ⟨[0x45], [0x65], ⟨[1], ∅⟩, 1000, true, true, now⟩

def responseTo (reqId : UInt64) : DecodedPacket := .fresh .response reqId

/-- Two requests; the second is answered, submits a third one, and is answered
again; the first expires while the third still has time. -/
def pipelined : List Event :=
  [.submit (sampleSubmit 0), .submit (sampleSubmit 0), .pumpOnce 0,
    .packet (.fresh .heartbeat 1) 5, .packet (responseTo 2) 6, .submit (sampleSubmit 7),
    .callbackReturns, .packet (responseTo 2) 8, .loopOnceReturns 1000000000, .nextExpired,
    .callbackReturns, .pumpOnceReturns]

theorem submits_completed_exactly_once_pipelined :
    ∃ final, run? (step Wire.wireProtobuf) initial pipelined = some final ∧
      final.returned = [(2, 2)] ∧ final.accepted.map Pending.id = [1, 2, 3] ∧
      (final.completed.map Completion.entry).map Pending.id = [2, 1] ∧
      final.pending.map Pending.id = [3] ∧ final.ExactlyOnce := by
  obtain ⟨final, reached, results⟩ : ∃ final,
      run? (step Wire.wireProtobuf) initial pipelined = some final ∧
        final.returned = [(2, 2)] ∧ final.accepted.map Pending.id = [1, 2, 3] ∧
        (final.completed.map Completion.entry).map Pending.id = [2, 1] ∧
        final.pending.map Pending.id = [3] := ⟨_, rfl, rfl, rfl, rfl, rfl⟩
  have fresh : Along (step Wire.wireProtobuf) (FreshId Wire.wireProtobuf) initial pipelined :=
    issued_initial.along (by decide)
  obtain ⟨returned, accepted, completed, pending⟩ := results
  exact ⟨final, reached, returned, accepted, completed, pending,
    submits_completed_exactly_once fresh reached⟩

/-- A request whose service name is too long for its length field is refused, but
has used an id up. -/
theorem submit_of_long {pb : Protobuf} {c : InlinePipelineClient} {args : Submit}
    (connected : args.connected = true) (long : args.service.length > 65535) :
    c.submit pb args = (false, { c with nextId := c.nextId + 1 }) := by
  have refused : appendString [] args.service = none := if_pos long
  have empty : encodeRequest pb args.request c.nextId args.service args.method = [] := by
    unfold encodeRequest encodeRequestBody
    rw [refused]
    rfl
  unfold submit
  rw [if_neg (ne_false_of_eq_true connected)]
  dsimp only
  rw [empty]
  rfl

def unencodable : Submit := ⟨List.replicate 65536 0, [], .cleared, 1000, true, true, 0⟩

theorem service_unencodable : unencodable.service.length > 65535 := by
  have length : unencodable.service.length = 65536 := List.length_replicate
  rw [length]
  decide

theorem run?_unencodable {pb : Protobuf} {c : InlinePipelineClient} (idle : c.phase = .idle)
    (count : Nat) (rest : List Event) :
    run? (step pb) c (List.replicate count (.submit unencodable) ++ rest) =
      run? (step pb) { c with nextId := c.nextId + UInt64.ofNat count } rest := by
  induction count generalizing c with
  | zero =>
      have same : c.nextId + UInt64.ofNat 0 = c.nextId := UInt64.add_zero _
      rw [same]
      rfl
  | succ count ih =>
      have called : c.step pb (.submit unencodable) = some (c.submit pb unencodable).2 := by
        unfold step
        rw [idle]
      rw [submit_of_long rfl service_unencodable] at called
      have later : c.nextId + UInt64.ofNat (count + 1) = c.nextId + 1 + UInt64.ofNat count := by
        rw [Nat.add_comm, UInt64.ofNat_add, ← UInt64.add_assoc]
        rfl
      rw [List.replicate_succ, List.cons_append, run?, called, later]
      exact ih idle

/-- Two requests expire in one sweep. -/
def expiringTogether : List Event :=
  [.submit (sampleSubmit 0), .submit (sampleSubmit 0), .pumpOnce 0, .loopOnceReturns 1000000000,
    .nextExpired]

/-- When the ids wrap around to one that is still pending, the request is accepted
but never entered, and in the first callback of a sweep the table is smaller than
the accepted requests without the completed ones. -/
theorem wrapped_id_drops_request :
    (∃ events final, run? (step Wire.wireProtobuf) initial events = some final ∧
      final.phase = .idle ∧ final.accepted.length = 2 ∧ final.pending.length = 1 ∧
      final.completed = []) ∧
    (∃ final, run? (step Wire.wireProtobuf) initial expiringTogether = some final ∧
      final.phase.inCallback = true ∧ final.accepted.length = 2 ∧ final.pending.length = 0 ∧
      final.completed.length = 1) := by
  constructor
  · refine ⟨.submit (sampleSubmit 0) :: (List.replicate (2 ^ 64 - 1) (.submit unencodable) ++
      [.submit (sampleSubmit 0)]), ?_⟩
    have first : initial.step Wire.wireProtobuf (.submit (sampleSubmit 0)) =
        some (initial.submit Wire.wireProtobuf (sampleSubmit 0)).2 := rfl
    rw [run?, first]
    dsimp only
    rw [run?_unencodable rfl]
    exact ⟨_, rfl, rfl, rfl, rfl, rfl⟩
  · exact ⟨_, rfl, rfl, rfl, rfl, rfl⟩

end InlinePipelineClient

end RpcFramework
