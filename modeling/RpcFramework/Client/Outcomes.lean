import Mathlib.Algebra.BigOperators.Group.Finset.Piecewise
import Mathlib.Algebra.Order.BigOperators.Group.Multiset
import Mathlib.Tactic.Abel
import RpcFramework.Client.Invariant
import RpcFramework.Lib.StepRun

/-!
# Outcomes on the circuit breaker

A handler tells the breaker its outcome before it looks for the call, and nobody tells
it anything about a call that a later interceptor turns away.  The log of the calls on
the breaker is compared with how the calls have ended: each outcome on the log belongs
to a completion of a call, one for one, and each call that the breaker has admitted has
the one outcome that is due, exactly as long as every handler finds a call and no
admitted call is turned away.

Between its record and the lock a handler is on the log and has completed nothing.  The
steps are therefore charged to the completions and to the handlers under way together,
and the comparison is made when no handler is under way.
-/

namespace RpcFramework.Client

open Codec

/-- How a call has ended, if it has. -/
def CallRecord.outcome (call : CallRecord) : Option Cause :=
  (call.completions ++ call.returned).head?

/-- What is to be recorded for a call that has ended this way. -/
def Cause.success : Cause → Bool
  | .response _ status _ => status == .success
  | _ => false

/-- The outcomes that the completions of a call stand for, under its request id. -/
def CallRecord.recorded (call : CallRecord) : List (UInt64 × Bool) :=
  call.completions.map fun cause => (call.reqId, cause.success)

/-- The outcome that is due for a call: none before it has ended, and one then. -/
def CallRecord.due (call : CallRecord) : List (UInt64 × Bool) :=
  (call.outcome.map fun cause => (call.reqId, cause.success)).toList

/-- The outcome of a call that fails on its own thread, on the way to the lock. -/
def CallRecord.failing (call : CallRecord) : List (UInt64 × Bool) :=
  if call.phase = .failing then [(call.reqId, false)] else []

def CallRecord.Charged (call : CallRecord) : Prop := call.recorded = call.due

def Handler.outcome (handler : Handler) : UInt64 × Bool := (handler.reqId, handler.success)

/-- The outcome that a call on the breaker tells it. -/
def BreakerCall.outcome? : BreakerCall → Option (UInt64 × Bool)
  | .allowRequest _ _ _ _ => none
  | .record handler _ => some handler.outcome

/-- The call is made on a breaker.  A verdict that the breaker does not give is refused. -/
def BreakerCall.replay (cb : CircuitBreaker) : BreakerCall → Option CircuitBreaker
  | .allowRequest _ now later verdict =>
      if (cb.allowRequest now later).1 = verdict then some (cb.allowRequest now later).2 else none
  | .record handler now =>
      some (if handler.success then cb.recordSuccess else cb.recordFailure now)

section Records

variable {call : CallRecord}

theorem Handler.success_cause (handler : Handler) : handler.cause.success = handler.success := by
  cases handler with
  | timeout reqId => rfl
  | response packet => rfl

theorem CallRecord.charged_of_open (open_call : call.completions = [])
    (unreturned : call.returned = []) : call.Charged := by
  rw [Charged, recorded, due, outcome, open_call, unreturned]
  rfl

theorem CallRecord.charged_answered (handler : Handler) (open_call : call.completions = []) :
    (call.answered handler).Charged := by
  rw [Charged, recorded, due, outcome, CallRecord.answered, open_call]
  rfl

/-- A call that is turned away ends without a completion. -/
theorem CallRecord.not_charged_blocked (open_call : call.completions = []) :
    ¬ (call.finish .blocked).Charged := by
  rw [Charged, recorded, due, outcome, CallRecord.finish, open_call]
  intro charged
  cases charged

theorem CallRecord.recorded_answered (handler : Handler) (own : handler.reqId = call.reqId) :
    (call.answered handler).recorded = handler.outcome :: call.recorded := by
  rw [recorded, CallRecord.answered, List.map_cons, handler.success_cause, Handler.outcome, own]
  rfl

theorem CallRecord.failing_of_ne (elsewhere : call.phase ≠ .failing) : call.failing = [] :=
  if_neg elsewhere

end Records

end Client

namespace RpcAsyncClient

open Client Codec StepRun

/-- The outcomes that the breaker has been told. -/
def told (s : RpcAsyncClient) : List (UInt64 × Bool) :=
  s.breakerCalls.filterMap BreakerCall.outcome?

/-- `allowRequest` has returned true for the call. -/
def Admitted (s : RpcAsyncClient) (c : CallId) : Prop :=
  ∃ now later, .allowRequest c now later true ∈ s.breakerCalls

def AllCharged (s : RpcAsyncClient) : Prop := ∀ c, s.Admitted c → (s.calls c).Charged

/-- Each admitted call has the one outcome that is due, and the breaker has been told
the outcomes of the completed calls and no others. -/
structure OneOutcome (s : RpcAsyncClient) : Prop where
  charged : s.AllCharged
  told : (s.told : Multiset (UInt64 × Bool)) =
    ∑ c ∈ Finset.range s.issued, ((s.calls c).recorded : Multiset (UInt64 × Bool))

/-- No handler is between its record on the breaker and the lock of the tables. -/
def Idle (s : RpcAsyncClient) : Prop :=
  s.handlers = [] ∧ ∀ c < s.issued, (s.calls c).phase ≠ .failing

/-- A handler that takes the lock finds a call, and an interceptor turns no call
away that the breaker has admitted. -/
def Benign (s : RpcAsyncClient) : Event → Prop
  | .preHandle c verdict now later => ∀ interceptor rest,
      (s.calls c).phase = .chain (interceptor :: rest) →
        (s.runInterceptor interceptor verdict now later).1 = false → ¬ s.Admitted c
  | .fail c => s.pendingCall (s.calls c).reqId ≠ none
  | .settle i => ∀ handler, s.handlers[i]? = some handler → s.pendingCall handler.reqId ≠ none
  | _ => True

/-! ## The log and the breaker -/

section Log

variable {s next : RpcAsyncClient} {event : Event}

/-- The breaker and the calls on it. -/
def breakerView (s : RpcAsyncClient) : Option CircuitBreaker × List BreakerCall :=
  (s.circuitBreaker, s.breakerCalls)

/-- A step leaves the breaker and the log alone, or makes one call that it logs. -/
inductive Uses (before : Option CircuitBreaker × List BreakerCall) :
    Option CircuitBreaker × List BreakerCall → Prop
  | none : Uses before before
  | one {cb after : CircuitBreaker} {call : BreakerCall} (present : before.1 = some cb)
      (made : call.replay cb = some after) : Uses before (some after, before.2 ++ [call])

theorem uses_record (s : RpcAsyncClient) (handler : Handler) (now : Int) :
    Uses s.breakerView (s.record handler now).breakerView := by
  cases breaker : s.circuitBreaker with
  | none =>
      have same : (s.record handler now).breakerView = s.breakerView := by
        simp [breakerView, record, breaker]
      rw [same]
      exact .none
  | some cb =>
      have told : (s.record handler now).breakerView =
          (some (if handler.success then cb.recordSuccess else cb.recordFailure now),
            s.breakerCalls ++ [.record handler now]) := by
        simp [breakerView, record, breaker]
      rw [told]
      exact .one breaker rfl

theorem uses_preHandle (s : RpcAsyncClient) (c : CallId) (interceptor : Interceptor)
    (rest : List Interceptor) (verdict : Bool) (now later : Int) :
    Uses s.breakerView (s.preHandle c interceptor rest verdict now later).breakerView := by
  cases interceptor with
  | other => exact .none
  | circuitBreaker =>
      cases breaker : s.circuitBreaker with
      | none =>
          have same : (s.preHandle c .circuitBreaker rest verdict now later).breakerView =
              s.breakerView := by
            simp [breakerView, preHandle, runInterceptor, asksBreaker, breaker]
          rw [same]
          exact .none
      | some cb =>
          have asked : (s.preHandle c .circuitBreaker rest verdict now later).breakerView =
              (some (cb.allowRequest now later).2, s.breakerCalls ++
                [.allowRequest c now later (cb.allowRequest now later).1]) := by
            simp [breakerView, preHandle, runInterceptor, asksBreaker, breaker]
          rw [asked]
          exact .one breaker (if_pos rfl)

/-- A handler under the lock does not use the breaker. -/
theorem settle_breaker (s : RpcAsyncClient) (handler : Handler) :
    (s.settle handler).breakerView = s.breakerView := by
  rcases s.settle_cases handler with ⟨_, stray⟩ | ⟨c, promises, callbacks, _, _, settled⟩
  · rw [stray]
  · rw [settled]
    rfl

theorem uses_step (taken : s.step event = some next) : Uses s.breakerView next.breakerView := by
  cases steps_of_step taken with
  | asyncCall alive overload =>
      unfold asyncCall
      split
      · exact .none
      · exact .none
  | preHandle made phase verdict now later => exact s.uses_preHandle _ _ _ verdict now later
  | @register c made phase =>
      obtain ⟨promises, callbacks, _, registered⟩ := s.register_eq c
      rw [registered]
      exact .none
  | arm made phase timer => exact .none
  | send made phase outcome now =>
      unfold send
      dsimp only
      split
      · exact .none
      · exact s.uses_record _ now
  | @fail c made phase =>
      change Uses s.breakerView (s.settle (.timeout (s.calls c).reqId)).breakerView
      rw [settle_breaker]
      exact .none
  | resume made phase completed => exact .none
  | packet packet now =>
      unfold onPacket
      split
      · exact s.uses_record (.response packet) now
      · exact .none
  | @timer reqId armed now =>
      unfold handleTimeout
      split
      · exact .none
      · exact s.uses_record (.timeout reqId) now
  | @settle i handler waits =>
      rw [settle_breaker]
      exact .none

/-- The breaker is the one that the calls of the log leave behind. -/
def Logged (cb : CircuitBreaker) (s : RpcAsyncClient) : Prop :=
  s.circuitBreaker.isSome = true ∧ run? BreakerCall.replay cb s.breakerCalls = s.circuitBreaker

theorem Logged.step {cb : CircuitBreaker} (logged : Logged cb s)
    (taken : s.step event = some next) : Logged cb next := by
  have used := uses_step taken
  rw [Logged, show next.circuitBreaker = next.breakerView.1 from rfl,
    show next.breakerCalls = next.breakerView.2 from rfl]
  generalize next.breakerView = after at used ⊢
  cases used with
  | none => exact logged
  | one present made =>
      exact ⟨rfl, run?_append (logged.2.trans present) (run?_cons_eq_some.mpr ⟨_, made, rfl⟩)⟩

end Log

/-! ## The books -/

/-- The outcomes of the handlers under way and of the completed calls. -/
def known (s : RpcAsyncClient) : Multiset (UInt64 × Bool) :=
  (s.handlers.map Handler.outcome : List (UInt64 × Bool)) +
    ∑ c ∈ Finset.range s.issued,
      ((s.calls c).recorded + (s.calls c).failing : Multiset (UInt64 × Bool))

/-- The comparison while handlers are under way. -/
def Accounted (s : RpcAsyncClient) : Prop :=
  s.AllCharged ∧ (s.told : Multiset (UInt64 × Bool)) = s.known

/-- The client of a breaker: only calls that have been made are admitted, and every
handler has told the breaker before it is known. -/
structure Guarded (s : RpcAsyncClient) : Prop where
  inv : s.Inv
  installed : s.circuitBreaker.isSome = true
  asked : ∀ c, s.Admitted c → c < s.issued
  covered : s.known.card ≤ s.told.length

/-- The next state is that of a client of a breaker, and it is accounted for exactly if
the state before is and the condition is met. -/
def Charges (s next : RpcAsyncClient) (met : Prop) : Prop :=
  next.Guarded ∧ (next.Accounted ↔ s.Accounted ∧ met)

section Books

variable {s next : RpcAsyncClient} {c : CallId}

theorem known_of_idle (idle : s.Idle) :
    s.known = ∑ c ∈ Finset.range s.issued, ((s.calls c).recorded : Multiset (UInt64 × Bool)) := by
  rw [known, idle.1, List.map_nil, Multiset.coe_nil, zero_add]
  refine Finset.sum_congr rfl fun c made => ?_
  rw [CallRecord.failing_of_ne (idle.2 c (Finset.mem_range.mp made)), Multiset.coe_nil, add_zero]

theorem accounted_iff_of_idle (idle : s.Idle) : s.Accounted ↔ s.OneOutcome := by
  rw [Accounted, known_of_idle idle]
  exact ⟨fun both => ⟨both.1, both.2⟩, fun one => ⟨one.charged, one.told⟩⟩

/-- A change of one call changes its part of the books. -/
theorem known_setCall (next : RpcAsyncClient) (made : c < s.issued)
    (issued : next.issued = s.issued)
    (handlers : next.handlers = s.handlers) {r : CallRecord}
    (calls : next.calls = Function.update s.calls c r) :
    next.known + ((s.calls c).recorded + (s.calls c).failing : Multiset (UInt64 × Bool)) =
      s.known + (r.recorded + r.failing : Multiset (UInt64 × Bool)) := by
  let part : CallRecord → Multiset (UInt64 × Bool) := fun call => call.recorded + call.failing
  have member : c ∈ Finset.range s.issued := Finset.mem_range.mpr made
  have changed : ∑ d ∈ Finset.range s.issued, part (Function.update s.calls c r d) =
      part r + ∑ d ∈ Finset.range s.issued \ {c}, part (s.calls d) := by
    rw [← Finset.sum_update_of_mem member]
    exact Finset.sum_congr rfl fun d _ => Function.apply_update (fun _ => part) s.calls c r d
  have before : ∑ d ∈ Finset.range s.issued, part (s.calls d) =
      part (s.calls c) + ∑ d ∈ Finset.range s.issued \ {c}, part (s.calls d) := by
    rw [Finset.sdiff_singleton_eq_erase]
    exact (Finset.add_sum_erase _ _ member).symm
  rw [known, known, issued, handlers, calls]
  change _ + ∑ d ∈ Finset.range s.issued, part (Function.update s.calls c r d) + part (s.calls c) =
    _ + ∑ d ∈ Finset.range s.issued, part (s.calls d) + part r
  rw [changed, before]
  abel

/-- A change of one call that is no part of its books. -/
theorem known_of_same (made : c < s.issued) (issued : next.issued = s.issued)
    (handlers : next.handlers = s.handlers) {r : CallRecord}
    (calls : next.calls = Function.update s.calls c r)
    (recorded : r.recorded = (s.calls c).recorded) (failing : r.failing = (s.calls c).failing) :
    next.known = s.known := by
  have balance := known_setCall next made issued handlers calls
  rw [recorded, failing] at balance
  exact add_right_cancel balance

/-- A handler that finds a call enters its outcome, and leaves the rest in place. -/
theorem known_settle (inv : s.Inv) (handler : Handler)
    (found : s.pendingCall handler.reqId ≠ none) :
    (s.settle handler).known = s.known + {handler.outcome} := by
  rcases s.settle_cases handler with ⟨missing, _⟩ | ⟨c, promises, callbacks, _, taken, settled⟩
  · exact absurd missing found
  · rw [settled]
    obtain ⟨made, own, _, _⟩ := inv.pending handler.reqId c taken.found
    have balance := known_setCall { s.answer c handler with
      pendingPromises := promises, pendingCallbacks := callbacks } made rfl rfl rfl
    rw [CallRecord.recorded_answered handler own.symm, ← Multiset.cons_coe,
      ← Multiset.singleton_add] at balance
    refine add_right_cancel (balance.trans ?_)
    change s.known + (_ + (s.calls c).recorded + (s.calls c).failing) = _
    abel

theorem told_record (installed : s.circuitBreaker.isSome = true) (handler : Handler) (now : Int) :
    (s.record handler now).told = s.told ++ [handler.outcome] := by
  rw [told, record, if_pos installed, List.filterMap_append]
  rfl

theorem admitted_record (s : RpcAsyncClient) (handler : Handler) (now : Int) :
    (s.record handler now).Admitted c ↔ s.Admitted c := by
  rw [Admitted, Admitted, record]
  dsimp only
  split
  · simp
  · rfl

theorem settle_log (s : RpcAsyncClient) (handler : Handler) :
    (s.settle handler).breakerCalls = s.breakerCalls :=
  congrArg Prod.snd (s.settle_breaker handler)

theorem admitted_of_log (log : next.breakerCalls = s.breakerCalls) :
    next.Admitted c ↔ s.Admitted c := by
  rw [Admitted, Admitted, log]

/-- Only one call can be charged or not by a step that changes one call. -/
theorem allCharged_iff {met : Prop}
    (elsewhere : ∀ d, d ≠ c → (next.Admitted d ↔ s.Admitted d) ∧ next.calls d = s.calls d)
    (here : (next.Admitted c → (next.calls c).Charged) ↔
      (s.Admitted c → (s.calls c).Charged) ∧ met) :
    next.AllCharged ↔ s.AllCharged ∧ met := by
  constructor
  · intro charged
    refine ⟨fun d admitted => ?_, (here.mp (charged c)).2⟩
    by_cases same : d = c
    · rw [same] at admitted ⊢
      exact (here.mp (charged c)).1 admitted
    · obtain ⟨asked, call⟩ := elsewhere d same
      rw [← call]
      exact charged d (asked.mpr admitted)
  · rintro ⟨charged, holds⟩ d admitted
    by_cases same : d = c
    · rw [same] at admitted ⊢
      exact here.mpr ⟨charged c, holds⟩ admitted
    · obtain ⟨asked, call⟩ := elsewhere d same
      rw [call]
      exact charged d (asked.mp admitted)

theorem allCharged_of_same (asked : ∀ d, next.Admitted d ↔ s.Admitted d)
    (charged : ∀ d, (next.calls d).Charged ↔ (s.calls d).Charged) :
    next.AllCharged ↔ s.AllCharged :=
  forall_congr' fun d => by rw [asked d, charged d]

/-- A step that tells the breaker what it makes known, and only that. -/
theorem Guarded.balanced (guarded : s.Guarded) {met : Prop} (inv : next.Inv)
    (installed : next.circuitBreaker.isSome = true) (asked : ∀ c, next.Admitted c → c < next.issued)
    (balance : (next.told : Multiset (UInt64 × Bool)) + s.known = s.told + next.known)
    (charged : next.AllCharged ↔ s.AllCharged ∧ met) : s.Charges next met := by
  have sizes := congrArg Multiset.card balance
  rw [Multiset.card_add, Multiset.card_add, Multiset.coe_card, Multiset.coe_card] at sizes
  have covered := guarded.covered
  refine ⟨⟨inv, installed, asked, by omega⟩, ?_⟩
  have same : (next.told : Multiset (UInt64 × Bool)) = next.known ↔
      (s.told : Multiset (UInt64 × Bool)) = s.known := by
    constructor
    · intro equal
      rw [equal, add_comm] at balance
      exact (add_right_cancel balance).symm
    · intro equal
      rw [equal, add_comm] at balance
      exact add_left_cancel balance
  rw [Accounted, Accounted, charged, same]
  tauto

/-- A handler that completes nothing has told the breaker too much. -/
theorem Guarded.stray (guarded : s.Guarded) {met : Prop} (unmet : ¬ met) (inv : next.Inv)
    (installed : next.circuitBreaker.isSome = true) (asked : ∀ c, next.Admitted c → c < next.issued)
    (same : next.told = s.told) (outcome : UInt64 × Bool)
    (lost : next.known + {outcome} = s.known) : s.Charges next met := by
  have sizes := congrArg Multiset.card lost
  rw [Multiset.card_add, Multiset.card_singleton] at sizes
  have covered := guarded.covered
  refine ⟨⟨inv, installed, asked, by rw [same]; omega⟩, ?_⟩
  refine iff_of_false ?_ fun both => unmet both.2
  intro accounted
  have equal := congrArg Multiset.card accounted.2
  rw [Multiset.coe_card, same] at equal
  omega

end Books

section Steps

variable {s next : RpcAsyncClient} {c : CallId}

/-- A step that changes one call, and neither its books nor the log. -/
theorem Guarded.update (guarded : s.Guarded) {r : CallRecord} (inv : next.Inv)
    (made : c < s.issued) (issued : next.issued = s.issued)
    (handlers : next.handlers = s.handlers) (breaker : next.circuitBreaker = s.circuitBreaker)
    (log : next.breakerCalls = s.breakerCalls) (calls : next.calls = Function.update s.calls c r)
    (recorded : r.recorded = (s.calls c).recorded) (failing : r.failing = (s.calls c).failing)
    (due : r.due = (s.calls c).due) : s.Charges next True := by
  refine guarded.balanced inv (breaker ▸ guarded.installed) ?_ ?_ ?_
  · intro d admitted
    rw [issued]
    exact guarded.asked d ((admitted_of_log log).mp admitted)
  · rw [told, log, known_of_same made issued handlers calls recorded failing, told]
  · rw [and_true]
    refine allCharged_of_same (fun d => admitted_of_log log) fun d => ?_
    rw [calls]
    by_cases same : d = c
    · rw [same, Function.update_self, CallRecord.Charged, CallRecord.Charged, recorded, due]
    · rw [Function.update_of_ne same]

/-- A call that moves on, not to or from a failure. -/
theorem Guarded.moveTo (guarded : s.Guarded) {phase : Phase} (inv : next.Inv)
    (made : c < s.issued) (issued : next.issued = s.issued)
    (handlers : next.handlers = s.handlers) (breaker : next.circuitBreaker = s.circuitBreaker)
    (log : next.breakerCalls = s.breakerCalls)
    (calls : next.calls = Function.update s.calls c ((s.calls c).moveTo phase))
    (before : (s.calls c).phase ≠ .failing) (after : phase ≠ .failing) : s.Charges next True := by
  refine guarded.update inv made issued handlers breaker log calls rfl ?_ rfl
  rw [CallRecord.failing_of_ne before]
  exact CallRecord.failing_of_ne after

/-- A handler records its outcome and goes on to the lock. -/
theorem Guarded.handle (guarded : s.Guarded) (handler : Handler) (now : Int) :
    s.Charges (s.handle handler now) True := by
  refine guarded.balanced (guarded.inv.handle handler now) ?_ ?_ ?_ ?_
  · exact (Option.isSome_map ..).trans guarded.installed
  · exact fun d admitted => guarded.asked d ((s.admitted_record handler now).mp admitted)
  · have log : (s.handle handler now).told = s.told ++ [handler.outcome] :=
      told_record guarded.installed handler now
    have more : (s.handle handler now).known = {handler.outcome} + s.known := by
      rw [known, known, RpcAsyncClient.handle, List.map_cons, ← Multiset.cons_coe,
        ← Multiset.singleton_add, add_assoc]
      rfl
    rw [log, more, ← Multiset.coe_add, Multiset.coe_singleton, add_assoc]
  · rw [and_true]
    exact allCharged_of_same (fun d => s.admitted_record handler now) fun _ => Iff.rfl

theorem failing_finish (call : CallRecord) (cause : Cause) : (call.finish cause).failing = [] :=
  CallRecord.failing_of_ne nofun

theorem failing_pass (call : CallRecord) (rest : List Interceptor) :
    (call.pass rest).failing = [] := by
  refine CallRecord.failing_of_ne ?_
  change (if rest.isEmpty then Phase.register else .chain rest) ≠ .failing
  split
  · exact nofun
  · exact nofun

theorem runInterceptor_installed (s : RpcAsyncClient) (interceptor : Interceptor)
    (verdict : Bool) (now later : Int) :
    (s.runInterceptor interceptor verdict now later).2.isSome = s.circuitBreaker.isSome := by
  unfold runInterceptor
  cases interceptor with
  | other => rfl
  | circuitBreaker =>
      cases breaker : s.circuitBreaker with
      | none => rfl
      | some cb => rfl

/-- An interceptor tells the breaker nothing. -/
theorem told_preHandle (s : RpcAsyncClient) (c : CallId) (interceptor : Interceptor)
    (rest : List Interceptor) (verdict : Bool) (now later : Int) :
    (s.preHandle c interceptor rest verdict now later).told = s.told := by
  rw [told, preHandle]
  dsimp only
  split
  · rw [List.filterMap_append]
    exact List.append_nil _
  · rfl

/-- An interceptor admits the call that it handles, or none. -/
theorem admitted_preHandle (s : RpcAsyncClient) (c : CallId) (interceptor : Interceptor)
    (rest : List Interceptor) (verdict : Bool) (now later : Int) {d : CallId} :
    (s.preHandle c interceptor rest verdict now later).Admitted d ↔ s.Admitted d ∨
      d = c ∧ s.asksBreaker interceptor = true ∧
        (s.runInterceptor interceptor verdict now later).1 = true := by
  rw [Admitted, Admitted, preHandle]
  dsimp only
  split
  · next asks =>
      constructor
      · rintro ⟨at_, after, member⟩
        rcases List.mem_append.mp member with old | new
        · exact .inl ⟨at_, after, old⟩
        · rw [List.mem_singleton, BreakerCall.allowRequest.injEq] at new
          exact .inr ⟨new.1, asks, new.2.2.2.symm⟩
      · rintro (⟨at_, after, old⟩ | ⟨rfl, _, passed⟩)
        · exact ⟨at_, after, List.mem_append_left _ old⟩
        · refine ⟨now, later, List.mem_append_right _ ?_⟩
          rw [passed]
          exact List.mem_singleton_self _
  · next silent => simp [silent]

theorem Guarded.preHandle (guarded : s.Guarded) (made : c < s.issued)
    {interceptor : Interceptor} {rest : List Interceptor}
    (phase : (s.calls c).phase = .chain (interceptor :: rest)) (verdict : Bool)
    (now later : Int) :
    s.Charges (s.preHandle c interceptor rest verdict now later)
      ((s.runInterceptor interceptor verdict now later).1 = false → ¬ s.Admitted c) := by
  have consistent := guarded.inv.consistent c
  have fresh := consistent.early (by simp [phase, Phase.Registered]) (by simp [phase])
  have before := CallRecord.charged_of_open fresh (consistent.open_call (by simp [phase]))
  have still : (s.calls c).failing = [] := CallRecord.failing_of_ne (by simp [phase])
  have asked := fun {d} => @admitted_preHandle s c interceptor rest verdict now later d
  refine guarded.balanced (guarded.inv.preHandle made phase verdict now later) ?_ ?_ ?_ ?_
  · exact (s.runInterceptor_installed interceptor verdict now later).trans guarded.installed
  · intro d admitted
    rcases asked.mp admitted with old | ⟨rfl, _⟩
    · exact guarded.asked d old
    · exact made
  · have same : (s.preHandle c interceptor rest verdict now later).known = s.known := by
      refine known_of_same made rfl rfl rfl ?_ ?_
      · split <;> rfl
      · rw [still]
        split
        · exact failing_pass _ rest
        · exact failing_finish _ _
    rw [told_preHandle, same]
  · refine allCharged_iff (c := c) (fun d differs => ⟨?_, Function.update_of_ne differs ..⟩) ?_
    · rw [asked]
      exact or_iff_left fun new => differs new.1
    · rw [show (s.preHandle c interceptor rest verdict now later).calls c = _ from
        Function.update_self .., asked]
      cases passes : (s.runInterceptor interceptor verdict now later).1 with
      | true =>
          have after : ((s.calls c).pass rest).Charged :=
            CallRecord.charged_of_open fresh (consistent.open_call (by simp [phase]))
          exact iff_of_true (fun _ => after) ⟨fun _ => before, Bool.noConfusion⟩
      | false =>
          have after := CallRecord.not_charged_blocked fresh
          simp only [Bool.false_eq_true, if_false, and_false, or_false, forall_const]
          exact ⟨fun charged => ⟨fun _ => before, fun admitted => after (charged admitted)⟩,
            fun both admitted => absurd admitted both.2⟩

/-- A call that is completed is charged as before: it was open. -/
theorem allCharged_settle (inv : s.Inv) (handler : Handler) :
    (s.settle handler).AllCharged ↔ s.AllCharged := by
  refine allCharged_of_same (fun d => admitted_of_log (settle_log s handler)) fun d => ?_
  rcases s.settle_cases handler with ⟨_, stray⟩ | ⟨c, promises, callbacks, _, taken, settled⟩
  · rw [stray]
  · rw [settled]
    change (Function.update s.calls c ((s.calls c).answered handler) d).Charged ↔ _
    by_cases same : d = c
    · obtain ⟨_, _, registered, fresh⟩ := inv.pending handler.reqId c taken.found
      have unreturned := (inv.consistent c).open_call registered.not_returned
      rw [same, Function.update_self]
      exact iff_of_true (CallRecord.charged_answered handler fresh)
        (CallRecord.charged_of_open fresh unreturned)
    · rw [Function.update_of_ne same]

/-- A handler of a loop thread takes the lock. -/
theorem Guarded.settle (guarded : s.Guarded) {i : Nat} {handler : Handler}
    (waits : s.handlers[i]? = some handler) (inv : next.Inv)
    (settled : next = RpcAsyncClient.settle { s with handlers := s.handlers.eraseIdx i } handler) :
    s.Charges next (s.pendingCall handler.reqId ≠ none) := by
  have started : RpcAsyncClient.Inv { s with handlers := s.handlers.eraseIdx i } :=
    guarded.inv.bookkeeping s.circuitBreaker s.timers _ s.breakerCalls
  have view := settle_breaker { s with handlers := s.handlers.eraseIdx i } handler
  have issued := (settle_keeps { s with handlers := s.handlers.eraseIdx i } handler).1
  have taken : RpcAsyncClient.known { s with handlers := s.handlers.eraseIdx i } +
      {handler.outcome} = s.known := by
    obtain ⟨short, here⟩ := List.getElem?_eq_some_iff.mp waits
    have split : s.handlers.Perm (handler :: s.handlers.eraseIdx i) := by
      rw [← here]
      exact (List.getElem_cons_eraseIdx_perm short).symm
    rw [known, known, Multiset.coe_eq_coe.mpr (split.map Handler.outcome), List.map_cons,
      ← Multiset.cons_coe, ← Multiset.singleton_add]
    change _ + _ + _ = _ + _ + _
    abel
  rw [← settled] at view issued
  have breaker : next.circuitBreaker = s.circuitBreaker := congrArg Prod.fst view
  have log : next.breakerCalls = s.breakerCalls := congrArg Prod.snd view
  have charged := allCharged_settle started handler
  rw [← settled] at charged
  have asked : ∀ c, next.Admitted c → c < next.issued := by
    intro d admitted
    rw [issued]
    exact guarded.asked d ((admitted_of_log log).mp admitted)
  have installed : next.circuitBreaker.isSome = true := breaker ▸ guarded.installed
  have told : next.told = s.told := congrArg (List.filterMap BreakerCall.outcome?) log
  by_cases found : s.pendingCall handler.reqId = none
  · refine guarded.stray (not_not_intro found) inv installed asked told handler.outcome ?_
    rcases settle_cases { s with handlers := s.handlers.eraseIdx i } handler with
      ⟨_, stray⟩ | ⟨c, promises, callbacks, present, _⟩
    · rw [settled, stray]
      exact taken
    · exact absurd (found.symm.trans present) nofun
  · refine guarded.balanced inv installed asked ?_ (charged.trans (and_iff_left found).symm)
    rw [told, settled, known_settle started handler found, taken]

/-- A call that was not sent takes the lock on its own thread. -/
theorem Guarded.fail (guarded : s.Guarded) (made : c < s.issued)
    (phase : (s.calls c).phase = .failing) :
    s.Charges (s.fail c) (s.pendingCall (s.calls c).reqId ≠ none) := by
  let handler : Handler := .timeout (s.calls c).reqId
  have breaker : (s.settle handler).circuitBreaker = s.circuitBreaker :=
    congrArg Prod.fst (s.settle_breaker handler)
  have log := s.settle_log handler
  obtain ⟨issued, _, phases⟩ := s.settle_keeps handler
  let call := (s.settle handler).calls c
  have sameId : call.reqId = (s.calls c).reqId := settle_reqId s handler c
  have failing : call.failing = [handler.outcome] := by
    rw [CallRecord.failing, phases c, phase, if_pos rfl, sameId]
    rfl
  have moved : (call.moveTo ((s.settle handler).afterSend call.overload)).failing = [] := by
    refine CallRecord.failing_of_ne ?_
    change (s.settle handler).afterSend call.overload ≠ .failing
    unfold afterSend
    split
    · exact nofun
    · exact nofun
  have balance := known_setCall (s := s.settle handler) (c := c) (s.fail c) (issued ▸ made)
    rfl rfl rfl
  rw [moved, failing, Multiset.coe_nil, add_zero, Multiset.coe_singleton] at balance
  have left : (s.fail c).known + {handler.outcome} = (s.settle handler).known := by
    refine add_right_cancel (b := (call.recorded : Multiset (UInt64 × Bool))) ?_
    rw [add_assoc, add_comm ({handler.outcome} : Multiset (UInt64 × Bool))]
    exact balance
  have asked : ∀ d, (s.fail c).Admitted d → d < (s.fail c).issued := by
    intro d admitted
    change d < (s.settle handler).issued
    rw [issued]
    exact guarded.asked d ((admitted_of_log log).mp admitted)
  have installed : (s.fail c).circuitBreaker.isSome = true := by
    change (s.settle handler).circuitBreaker.isSome = true
    rw [breaker]
    exact guarded.installed
  have told : (s.fail c).told = s.told := congrArg (List.filterMap BreakerCall.outcome?) log
  have inv := guarded.inv.fail made phase
  by_cases found : s.pendingCall (s.calls c).reqId = none
  · refine guarded.stray (not_not_intro found) inv installed asked told handler.outcome ?_
    rcases s.settle_cases handler with ⟨_, stray⟩ | ⟨d, promises, callbacks, present, _⟩
    · rw [left, stray]
    · exact absurd (found.symm.trans present) nofun
  · refine guarded.balanced inv installed asked ?_ ?_
    · rw [told]
      rw [known_settle guarded.inv handler found] at left
      rw [add_right_cancel left]
    · rw [and_iff_left found, ← allCharged_settle guarded.inv handler]
      refine allCharged_of_same (fun d => Iff.rfl) fun d => ?_
      change (Function.update (s.settle handler).calls c _ d).Charged ↔ _
      by_cases same : d = c
      · rw [same, Function.update_self]
        rfl
      · rw [Function.update_of_ne same]

/-- A call whose packet was not sent tells the breaker and is failing. -/
theorem Guarded.failAtOnce (guarded : s.Guarded) (inv : (s.failAtOnce c now).Inv)
    (made : c < s.issued) (phase : (s.calls c).phase = .send) :
    s.Charges (s.failAtOnce c now) True := by
  let handler : Handler := .timeout (s.calls c).reqId
  refine guarded.balanced inv ((Option.isSome_map ..).trans guarded.installed) ?_ ?_ ?_
  · exact fun d admitted => guarded.asked d ((s.admitted_record handler now).mp admitted)
  · have balance := known_setCall (s.failAtOnce c now) made rfl rfl rfl
    have before : (s.calls c).failing = [] := CallRecord.failing_of_ne (by simp [phase])
    have after : ((s.calls c).moveTo .failing).failing = [handler.outcome] := if_pos rfl
    have log : (s.failAtOnce c now).told = s.told ++ [handler.outcome] :=
      told_record guarded.installed handler now
    rw [before, after, Multiset.coe_nil, add_zero, Multiset.coe_singleton] at balance
    have more : (s.failAtOnce c now).known = s.known + {handler.outcome} := by
      refine add_right_cancel (b := ((s.calls c).recorded : Multiset (UInt64 × Bool))) ?_
      rw [add_assoc, add_comm ({handler.outcome} : Multiset (UInt64 × Bool))]
      exact balance
    rw [log, more, ← Multiset.coe_add, Multiset.coe_singleton]
    abel
  · rw [and_true]
    refine allCharged_of_same (fun d => s.admitted_record handler now) fun d => ?_
    change (Function.update s.calls c _ d).Charged ↔ _
    by_cases same : d = c
    · rw [same, Function.update_self]
      rfl
    · rw [Function.update_of_ne same]

/-- A new call is not on the log, and it has no books. -/
theorem Guarded.asyncCall (guarded : s.Guarded) (overload : Overload)
    (inv : (s.asyncCall overload).Inv) : s.Charges (s.asyncCall overload) True := by
  have unmade : ¬ s.Admitted s.issued := fun admitted =>
    Nat.lt_irrefl _ (guarded.asked _ admitted)
  have added : ∃ r : CallRecord, r.recorded = [] ∧ r.failing = [] ∧
      (s.asyncCall overload).calls = Function.update s.calls s.issued r ∧
      (s.asyncCall overload).issued = s.issued + 1 ∧
      (s.asyncCall overload).handlers = s.handlers ∧
      (s.asyncCall overload).circuitBreaker = s.circuitBreaker ∧
      (s.asyncCall overload).breakerCalls = s.breakerCalls := by
    unfold RpcAsyncClient.asyncCall
    split
    · refine ⟨_, ?_, ?_, rfl, rfl, rfl, rfl, rfl⟩
      · rfl
      · exact CallRecord.failing_of_ne nofun
    · refine ⟨_, ?_, ?_, rfl, rfl, rfl, rfl, rfl⟩
      · rfl
      · refine CallRecord.failing_of_ne ?_
        dsimp only
        split
        · exact nofun
        · exact nofun
  obtain ⟨r, recorded, failing, calls, issued, handlers, breaker, log⟩ := added
  refine guarded.balanced inv (breaker ▸ guarded.installed) ?_ ?_ ?_
  · intro d admitted
    rw [issued]
    exact Nat.lt_succ_of_lt (guarded.asked d ((admitted_of_log log).mp admitted))
  · have same : (s.asyncCall overload).known = s.known := by
      rw [known, known, issued, handlers, calls, Finset.sum_range_succ, Function.update_self,
        recorded, failing, Multiset.coe_nil, add_zero, add_zero]
      refine congrArg _ (Finset.sum_congr rfl fun d made => ?_)
      rw [Function.update_of_ne (Nat.ne_of_lt (Finset.mem_range.mp made))]
    rw [told, log, same, told]
  · refine allCharged_iff (c := s.issued) (fun d differs => ⟨admitted_of_log log, ?_⟩) ?_
    · rw [calls, Function.update_of_ne differs]
    · rw [admitted_of_log log]
      exact iff_of_true (fun admitted => absurd admitted unmade)
        ⟨fun admitted => absurd admitted unmade, trivial⟩

theorem Guarded.step (guarded : s.Guarded) {event : Event} (taken : s.step event = some next) :
    s.Charges next (s.Benign event) := by
  have inv := guarded.inv.step taken
  cases steps_of_step taken with
  | asyncCall alive overload => exact guarded.asyncCall overload inv
  | preHandle made phase verdict now later =>
      obtain ⟨after, exact_step⟩ := guarded.preHandle made phase verdict now later
      refine ⟨after, exact_step.trans (and_congr_right fun _ => ?_)⟩
      constructor
      · intro benign interceptor rest here
        cases phase.symm.trans here
        exact benign
      · exact fun benign => benign _ _ phase
  | @register c made phase =>
      obtain ⟨promises, callbacks, _, registered⟩ := s.register_eq c
      rw [registered] at inv ⊢
      exact guarded.moveTo inv made rfl rfl rfl rfl rfl (by simp [phase]) nofun
  | arm made phase timer =>
      exact guarded.moveTo inv made rfl rfl rfl rfl rfl (by simp [phase]) nofun
  | @send c made phase outcome now =>
      unfold RpcAsyncClient.send at inv ⊢
      dsimp only at inv ⊢
      split at inv
      · next passed =>
          rw [if_pos passed]
          refine guarded.moveTo inv made rfl rfl rfl rfl rfl (by simp [phase]) ?_
          unfold afterSend
          split
          · exact nofun
          · exact nofun
      · next failed =>
          rw [if_neg failed]
          exact guarded.failAtOnce inv made phase
  | fail made phase => exact guarded.fail made phase
  | @resume c made phase cause others completed =>
      refine guarded.update inv made rfl rfl rfl rfl rfl rfl ?_ ?_
      · rw [failing_finish, CallRecord.failing_of_ne (by simp [phase])]
      · simp [CallRecord.due, CallRecord.outcome, CallRecord.finish, completed]
  | packet packet now =>
      unfold RpcAsyncClient.onPacket at inv ⊢
      split at inv
      · next response =>
          rw [if_pos response]
          exact guarded.handle (.response packet) now
      · next other =>
          rw [if_neg other]
          exact ⟨guarded, (and_iff_left trivial).symm⟩
  | @timer reqId armed now =>
      have started : RpcAsyncClient.Guarded { s with timers := s.timers.erase reqId } :=
        ⟨guarded.inv.bookkeeping s.circuitBreaker _ s.handlers s.breakerCalls, guarded.installed,
          guarded.asked, guarded.covered⟩
      unfold RpcAsyncClient.handleTimeout at inv ⊢
      split at inv
      · next destroyed =>
          rw [if_pos destroyed]
          exact ⟨started, (and_iff_left trivial).symm⟩
      · next alive =>
          rw [if_neg alive]
          exact started.handle (.timeout reqId) now
  | @settle i handler waits =>
      obtain ⟨after, exact_step⟩ := guarded.settle waits inv rfl
      refine ⟨after, exact_step.trans (and_congr_right fun _ => ?_)⟩
      constructor
      · intro found other here
        cases waits.symm.trans here
        exact found
      · exact fun benign => benign handler waits

end Steps

theorem guarded_new (invalid : Bool) (chain : List Interceptor) (cb : CircuitBreaker) :
    (new invalid chain (some cb)).Guarded where
  inv := inv_new invalid chain (some cb)
  installed := rfl
  asked := by
    rintro c ⟨now, later, member⟩
    cases member
  covered := Nat.le_refl 0

/--
The breaker is what the logged calls have made of it.  Whenever no handler is between its
record and the lock, after any steps of the calls, packets, timers and interceptors: each
admitted call has told the breaker the one outcome that is due and nothing else was told,
exactly if each handler found a call when it took the lock and no admitted call was
turned away.
-/
theorem oneOutcome_iff_benign {invalid : Bool} {chain : List Interceptor} {cb : CircuitBreaker}
    {events : List Event} {final : RpcAsyncClient}
    (reached : run? step (new invalid chain (some cb)) events = some final) (idle : final.Idle) :
    run? BreakerCall.replay cb final.breakerCalls = final.circuitBreaker ∧
      (final.OneOutcome ↔ Along step Benign (new invalid chain (some cb)) events) := by
  have logged : Logged cb final :=
    run?_invariant (fun _ _ _ logged taken => logged.step taken) ⟨rfl, rfl⟩ reached
  refine ⟨logged.2, ?_⟩
  have start : (new invalid chain (some cb)).Accounted := by
    refine ⟨?_, rfl⟩
    rintro c ⟨now, later, member⟩
    cases member
  have kept : ∀ (s : RpcAsyncClient) event next, s.Guarded → s.step event = some next →
      next.Guarded := fun _ _ _ guarded taken => (guarded.step taken).1
  have exact_step : ∀ (s : RpcAsyncClient) event next, s.Guarded → s.step event = some next →
      (next.Accounted ↔ s.Accounted ∧ s.Benign event) := fun _ _ _ guarded taken =>
    (guarded.step taken).2
  rw [← accounted_iff_of_idle idle,
    run?_exact_along kept exact_step (guarded_new invalid chain cb) reached]
  exact and_iff_right start

/-- A client whose chain is the interceptor of its breaker. -/
def guardedClient : RpcAsyncClient := new false [.circuitBreaker] (some (.new 5 30))

/-- One call, its response and its return. -/
def answeredCall : List Event :=
  [.asyncCall .future, .preHandle 0 true 0 0, .register 0, .arm 0 true, .send 0 .sent 0,
    .packet (.fresh .response 1) 0, .settle 0, .resume 0]

theorem oneOutcome_iff_benign_answeredCall :
    ∃ final, run? step guardedClient answeredCall = some final ∧ final.Idle ∧
      (final.calls 0).outcome = some (.response 1 .success .cleared) ∧
      final.told = [(1, true)] ∧ final.OneOutcome := by
  obtain ⟨final, reached, issued, handlers, phase, outcome, told⟩ : ∃ final,
      run? step guardedClient answeredCall = some final ∧ final.issued = 1 ∧
        final.handlers = [] ∧ (final.calls 0).phase = .returned ∧
        (final.calls 0).outcome = some (.response 1 .success .cleared) ∧
        final.told = [(1, true)] := ⟨_, rfl, rfl, rfl, rfl, rfl, rfl⟩
  have idle : final.Idle := by
    refine ⟨handlers, fun c made => ?_⟩
    rw [issued, Nat.lt_one_iff] at made
    rw [made, phase]
    exact nofun
  refine ⟨final, reached, idle, outcome, told, (oneOutcome_iff_benign reached idle).2.mpr ?_⟩
  have admitted : ∀ interceptor rest, Phase.chain [.circuitBreaker] = .chain (interceptor :: rest) →
      (runInterceptor (guardedClient.asyncCall .future) interceptor true 0 0).1 = false →
        ¬ (guardedClient.asyncCall .future).Admitted 0 := by
    rintro interceptor rest ⟨⟩ blocked
    cases blocked
  refine .cons trivial rfl (.cons admitted rfl (.cons trivial rfl (.cons trivial rfl
    (.cons trivial rfl (.cons trivial rfl (.cons ?_ rfl (.cons trivial rfl trivial)))))))
  rintro handler ⟨⟩
  nofun

/-- The timer of a call that was answered in time tells the breaker a failure. -/
theorem late_timer_recorded :
    ∃ final, run? step guardedClient (answeredCall ++ [.timer 1 0, .settle 0]) = some final ∧
      final.handlers = [] ∧ (final.calls 0).completions.length = 1 ∧
      final.told = [(1, true), (1, false)] ∧
      final.circuitBreaker.map CircuitBreaker.failureCount = some 1 ∧ ¬ final.OneOutcome := by
  refine ⟨_, rfl, rfl, rfl, rfl, rfl, fun one => ?_⟩
  have sizes := congrArg Multiset.card one.told
  cases sizes

end RpcAsyncClient

end RpcFramework
