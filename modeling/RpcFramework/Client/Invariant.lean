import RpcFramework.Client.Handlers

/-!
# The invariant of the client

The invariant ties the request ids handed out, the entries of the two tables
and the completions of the calls together.  A handler finds at most one entry,
and taking it out and completing its call is one step; an entry is only lost by
completing its call.
-/

namespace RpcFramework.Client

/-- The phases between the registration of a call and its return. -/
def Phase.Registered : Phase → Prop
  | .arm | .send | .failing | .waiting | .detached => True
  | .chain _ | .register | .returned => False

/-- A call is completed only between its registration and its return, and a
response that completed it carried its id. -/
structure CallRecord.Consistent (r : CallRecord) : Prop where
  early : ¬ r.phase.Registered → r.phase ≠ .returned → r.completions = []
  once : r.completions.length ≤ 1
  open_call : r.phase ≠ .returned → r.returned = []
  ended : r.phase = .returned → r.returned.length = 1
  own : ∀ reqId status resp, Cause.response reqId status resp ∈ r.completions ++ r.returned →
    reqId = r.reqId

/-- A call that stays open keeps its history consistent. -/
theorem CallRecord.Consistent.move {r next : CallRecord} (consistent : r.Consistent)
    (sameId : next.reqId = r.reqId) (completions : next.completions = r.completions)
    (returned : next.returned = r.returned) (open_before : r.phase ≠ .returned)
    (open_after : next.phase ≠ .returned)
    (early : ¬ next.phase.Registered → r.completions = []) : next.Consistent := by
  refine ⟨?_, ?_, ?_, ?_, ?_⟩
  · intro unregistered _
    rw [completions]
    exact early unregistered
  · rw [completions]
    exact consistent.once
  · intro _
    rw [returned]
    exact consistent.open_call open_before
  · exact fun ended => absurd ended open_after
  · rw [completions, returned, sameId]
    exact consistent.own

theorem Phase.Registered.not_returned {phase : Phase} (registered : phase.Registered) :
    phase ≠ .returned := by
  rintro rfl
  exact registered

/-- A registered call is completed. -/
theorem CallRecord.Consistent.complete {r next : CallRecord} (consistent : r.Consistent)
    (registered : r.phase.Registered) {cause : Cause} (completed : next.completions = [cause])
    (sameId : next.reqId = r.reqId) (returned : next.returned = r.returned)
    (phase : next.phase = r.phase)
    (own : ∀ reqId status resp, cause = .response reqId status resp → reqId = r.reqId) :
    next.Consistent := by
  have nothing : next.returned = [] :=
    returned.trans (consistent.open_call registered.not_returned)
  refine ⟨?_, ?_, fun _ => nothing, ?_, ?_⟩
  · intro unregistered
    exact absurd (phase ▸ registered) unregistered
  · rw [completed]
    exact Nat.le_refl 1
  · intro ended
    exact absurd (phase.symm.trans ended) registered.not_returned
  · intro reqId status resp member
    rw [completed, nothing, List.append_nil, List.mem_singleton] at member
    rw [sameId]
    exact own reqId status resp member.symm

/-- A call that returns hands one result over. -/
theorem CallRecord.Consistent.finish {r : CallRecord} (consistent : r.Consistent)
    (open_before : r.phase ≠ .returned) {cause : Cause}
    (own : ∀ reqId status resp, cause = .response reqId status resp → reqId = r.reqId) :
    (r.finish cause).Consistent := by
  have returned : (r.finish cause).returned = [cause] := by
    rw [CallRecord.finish, consistent.open_call open_before]
  refine ⟨?_, consistent.once, ?_, ?_, ?_⟩
  · exact fun _ open_after => absurd rfl open_after
  · exact fun open_after => absurd rfl open_after
  · intro _
    rw [returned]
    rfl
  · intro reqId status resp member
    rw [returned] at member
    rcases List.mem_append.mp member with earlier | same
    · exact consistent.own reqId status resp (List.mem_append_left _ earlier)
    · exact own reqId status resp (List.mem_singleton.mp same).symm

end Client

namespace RpcAsyncClient

open Client Codec

/-- Entries belong to registered calls that have no result yet and carry their ids;
while the ids have not wrapped, every such call has its entry. -/
structure Inv (s : RpcAsyncClient) : Prop where
  consistent : ∀ c, (s.calls c).Consistent
  unmade : ∀ c, s.issued ≤ c → s.calls c = .none
  pending : ∀ reqId c, s.Pending reqId c → c < s.issued ∧ (s.calls c).reqId = reqId ∧
    (s.calls c).phase.Registered ∧ (s.calls c).completions = []
  apart : ∀ reqId c, s.pendingPromises.lookup reqId = some c →
    s.pendingCallbacks.lookup reqId ≠ some c
  next : s.invalid = true ∨ s.nextReqId = UInt64.ofNat (s.issued + 1)
  numbered : ∀ c < s.issued, (s.calls c).phase ≠ .returned →
    (s.calls c).reqId = UInt64.ofNat (c + 1)
  tracked : s.issued < 2 ^ 64 → ∀ c < s.issued, (s.calls c).phase.Registered →
    (s.calls c).completions = [] → s.Pending (s.calls c).reqId c
  quiescent : s.destroyed = true → s.Quiescent
  emptied : s.swept = true → s.destroyed = true ∧ ∀ reqId c, ¬ s.Pending reqId c

/-! ## Entries and the invariant -/

section Tables

variable {s : RpcAsyncClient} {reqId : UInt64} {c : CallId} {promises callbacks : PendingTable}

theorem Taken.apart (taken : s.Taken reqId c promises callbacks) (inv : s.Inv) (other : UInt64)
    (d : CallId) (inPromises : promises.lookup other = some d) :
    callbacks.lookup other ≠ some d := by
  cases taken with
  | promise found =>
      by_cases same : other = reqId
      · rw [same, AList.lookup_erase] at inPromises
        cases inPromises
      · rw [AList.lookup_erase_ne same] at inPromises
        exact inv.apart other d inPromises
  | callback absent found =>
      by_cases same : other = reqId
      · rw [same, AList.lookup_erase]
        nofun
      · rw [AList.lookup_erase_ne same]
        exact inv.apart other d inPromises

/-- The other entries stay, and the call that was found has none left. -/
theorem Taken.pending_iff (taken : s.Taken reqId c promises callbacks) (inv : s.Inv)
    (other : UInt64) (d : CallId) :
    InTables promises callbacks other d ↔ s.Pending other d ∧ d ≠ c := by
  unfold InTables
  by_cases same : other = reqId
  · subst same
    cases taken with
    | promise found =>
        rw [AList.lookup_erase]
        constructor
        · rintro (impossible | inCallbacks)
          · cases impossible
          · refine ⟨Or.inr inCallbacks, ?_⟩
            rintro rfl
            exact inv.apart other d found inCallbacks
        · rintro ⟨inPromises | inCallbacks, differs⟩
          · rw [found] at inPromises
            exact absurd (Option.some.inj inPromises).symm differs
          · exact Or.inr inCallbacks
    | callback absent found =>
        rw [AList.lookup_erase]
        constructor
        · rintro (inPromises | impossible)
          · rw [absent] at inPromises
            cases inPromises
          · cases impossible
        · rintro ⟨inPromises | inCallbacks, differs⟩
          · exact Or.inl inPromises
          · rw [found] at inCallbacks
            exact absurd (Option.some.inj inCallbacks).symm differs
  · obtain ⟨inPromises, inCallbacks⟩ := taken.others same
    rw [inPromises, inCallbacks]
    change s.Pending other d ↔ _
    constructor
    · intro entry
      refine ⟨entry, ?_⟩
      rintro rfl
      have first := (inv.pending other d entry).2.1
      exact same (first.symm.trans (inv.pending reqId d taken.found).2.1)
    · exact fun entry => entry.1

theorem Entered.apart (entered : s.Entered reqId c promises callbacks) (inv : s.Inv)
    (new : ¬ s.Pending reqId c) (other : UInt64) (d : CallId)
    (inPromises : promises.lookup other = some d) : callbacks.lookup other ≠ some d := by
  by_cases same : other = reqId
  · subst same
    intro inCallbacks
    cases entered with
    | promise =>
        rw [AList.lookup_insert] at inPromises
        cases inPromises
        exact new (Or.inr inCallbacks)
    | callback =>
        rw [AList.lookup_insert] at inCallbacks
        cases inCallbacks
        exact new (Or.inl inPromises)
  · obtain ⟨first, second⟩ := entered.others same
    rw [first] at inPromises
    rw [second]
    exact inv.apart other d inPromises

end Tables

/-! ## Single steps keep the invariant -/

section Steps

variable {s : RpcAsyncClient}

theorem inv_new (invalid : Bool) (chain : List Interceptor)
    (circuitBreaker : Option CircuitBreaker) : (new invalid chain circuitBreaker).Inv where
  consistent c := ⟨fun _ _ => rfl, Nat.zero_le _, fun _ => rfl, nofun, nofun⟩
  unmade c _ := rfl
  pending reqId c entry := by
    rcases entry with entry | entry <;> cases entry
  apart reqId c := nofun
  next := Or.inr rfl
  numbered c made := absurd made (Nat.not_lt_zero c)
  tracked _ c made := absurd made (Nat.not_lt_zero c)
  quiescent := nofun
  emptied := nofun

/-- Changing one call and the tables, with the other calls left in place. -/
theorem Inv.update (inv : s.Inv) {c : CallId} {r : CallRecord}
    {promises callbacks : PendingTable} (made : c < s.issued) (consistent : r.Consistent)
    (sameId : r.reqId = (s.calls c).reqId)
    (open_before : r.phase ≠ .returned → (s.calls c).phase ≠ .returned)
    (quiescent : (s.calls c).phase ∈ [.waiting, .detached, .returned] →
      r.phase ∈ [.waiting, .detached, .returned])
    (registered : ∀ reqId, InTables promises callbacks reqId c →
      reqId = r.reqId ∧ r.phase.Registered ∧ r.completions = [])
    (others : ∀ reqId d, d ≠ c → InTables promises callbacks reqId d → s.Pending reqId d)
    (apart : ∀ reqId d, promises.lookup reqId = some d → callbacks.lookup reqId ≠ some d)
    (tracked : s.issued < 2 ^ 64 → r.phase.Registered → r.completions = [] →
      InTables promises callbacks r.reqId c)
    (kept : s.issued < 2 ^ 64 → ∀ d, d ≠ c → d < s.issued → (s.calls d).phase ≠ .returned →
      s.Pending (s.calls d).reqId d → InTables promises callbacks (s.calls d).reqId d)
    (emptied : s.swept = true → ∀ reqId d, ¬ InTables promises callbacks reqId d) :
    RpcAsyncClient.Inv
      { s.setCall c r with pendingPromises := promises, pendingCallbacks := callbacks } := by
  have at_call : Function.update s.calls c r c = r := Function.update_self ..
  have elsewhere : ∀ d, d ≠ c → Function.update s.calls c r d = s.calls d := fun d differs =>
    Function.update_of_ne differs ..
  refine ⟨?_, ?_, ?_, apart, inv.next, ?_, ?_, ?_, ?_⟩ <;>
    dsimp only [RpcAsyncClient.setCall, Quiescent]
  · intro d
    by_cases same : d = c
    · rw [same, at_call]
      exact consistent
    · rw [elsewhere d same]
      exact inv.consistent d
  · intro d later
    have differs : d ≠ c := fun same => Nat.not_lt.mpr later (same ▸ made)
    rw [elsewhere d differs]
    exact inv.unmade d later
  · intro reqId d entry
    by_cases same : d = c
    · subst same
      obtain ⟨owns, phase, fresh⟩ := registered reqId entry
      rw [at_call]
      exact ⟨made, owns.symm, phase, fresh⟩
    · rw [elsewhere d same]
      exact inv.pending reqId d (others reqId d same entry)
  · intro d issued
    by_cases same : d = c
    · subst same
      rw [at_call, sameId]
      exact fun open_after => inv.numbered d issued (open_before open_after)
    · rw [elsewhere d same]
      exact inv.numbered d issued
  · intro few d issued
    by_cases same : d = c
    · subst same
      rw [at_call]
      exact tracked few
    · rw [elsewhere d same]
      intro registered fresh
      exact kept few d same issued registered.not_returned
        (inv.tracked few d issued registered fresh)
  · intro destroyed d issued
    have before := inv.quiescent destroyed d issued
    by_cases same : d = c
    · subst same
      rw [at_call]
      exact quiescent before
    · rw [elsewhere d same]
      exact before
  · intro swept
    exact ⟨(inv.emptied swept).1, emptied swept⟩

/-- The breaker, the timers, the handlers under way and the stray records are no
part of the invariant. -/
theorem Inv.bookkeeping (inv : s.Inv) (circuitBreaker : Option CircuitBreaker)
    (timers : List UInt64) (handlers : List Handler) (breakerCalls : List BreakerCall) :
    RpcAsyncClient.Inv { s with
      circuitBreaker := circuitBreaker
      timers := timers
      handlers := handlers
      breakerCalls := breakerCalls } :=
  ⟨inv.consistent, inv.unmade, inv.pending, inv.apart, inv.next, inv.numbered, inv.tracked,
    inv.quiescent, inv.emptied⟩

/-- A call may change in place if this agrees with its entries. -/
theorem Inv.setCall (inv : s.Inv) {c : CallId} {r : CallRecord} (made : c < s.issued)
    (consistent : r.Consistent) (sameId : r.reqId = (s.calls c).reqId)
    (open_before : r.phase ≠ .returned → (s.calls c).phase ≠ .returned)
    (quiescent : (s.calls c).phase ∈ [.waiting, .detached, .returned] →
      r.phase ∈ [.waiting, .detached, .returned])
    (registered : (s.calls c).phase.Registered ∧ (s.calls c).completions = [] ↔
      r.phase.Registered ∧ r.completions = []) :
    (s.setCall c r).Inv := by
  apply inv.update made consistent sameId open_before quiescent
  · intro reqId entry
    obtain ⟨_, owns, before⟩ := inv.pending reqId c entry
    exact ⟨owns.symm.trans sameId.symm, registered.mp before⟩
  · exact fun reqId d _ entry => entry
  · exact inv.apart
  · intro few phase fresh
    obtain ⟨before, freshBefore⟩ := registered.mpr ⟨phase, fresh⟩
    rw [sameId]
    exact inv.tracked few c made before freshBefore
  · exact fun _ d _ _ _ entry => entry
  · exact fun swept => (inv.emptied swept).2

/-- Taking an entry out and completing its call. -/
theorem Inv.taken (inv : s.Inv) {reqId : UInt64} {c : CallId} {promises callbacks : PendingTable}
    (taken : s.Taken reqId c promises callbacks) {cause : Cause} {r : CallRecord}
    (completed : r.completions = [cause]) (returned : r.returned = (s.calls c).returned)
    (samePhase : r.phase = (s.calls c).phase) (sameId : r.reqId = (s.calls c).reqId)
    (own : ∀ other status resp, cause = .response other status resp → other = reqId) :
    RpcAsyncClient.Inv
      { s.setCall c r with pendingPromises := promises, pendingCallbacks := callbacks } := by
  obtain ⟨made, owns, registered, fresh⟩ := inv.pending reqId c taken.found
  have entries := taken.pending_iff inv
  have consistent : r.Consistent := by
    apply (inv.consistent c).complete registered completed sameId returned samePhase
    rw [owns]
    exact own
  apply inv.update made consistent sameId (fun _ => registered.not_returned)
    (fun before => samePhase ▸ before)
  · intro other entry
    exact absurd rfl ((entries other c).mp entry).2
  · exact fun other d _ entry => ((entries other d).mp entry).1
  · exact taken.apart inv
  · intro _ _ stillFresh
    rw [completed] at stillFresh
    cases stillFresh
  · exact fun _ d differs _ _ entry => (entries _ d).mpr ⟨entry, differs⟩
  · intro swept
    exact absurd taken.found ((inv.emptied swept).2 reqId c)

theorem Inv.settle (inv : s.Inv) (handler : Handler) : (s.settle handler).Inv := by
  rcases s.settle_cases handler with ⟨_, stray⟩ | ⟨c, promises, callbacks, _, taken, settled⟩
  · rw [stray]
    exact inv
  · rw [settled]
    have fresh := (inv.pending handler.reqId c taken.found).2.2.2
    apply inv.taken taken (r := (s.calls c).answered handler)
      (congrArg (handler.cause :: ·) fresh) rfl rfl rfl
    cases handler with
    | timeout reqId => nofun
    | response packet =>
        rintro other status resp ⟨⟩
        rfl

theorem Inv.handle (inv : s.Inv) (handler : Handler) (now : Int) : (s.handle handler now).Inv :=
  inv.bookkeeping _ s.timers _ _

theorem Inv.handleTimeout (inv : s.Inv) (reqId : UInt64) (now : Int) :
    (s.handleTimeout reqId now).Inv := by
  unfold RpcAsyncClient.handleTimeout
  split
  · exact inv
  · exact inv.handle (.timeout reqId) now

theorem Inv.onPacket (inv : s.Inv) (packet : DecodedPacket) (now : Int) :
    (s.onPacket packet now).Inv := by
  unfold RpcAsyncClient.onPacket
  split
  · exact inv.handle (.response packet) now
  · exact inv

/-- A new call that is not registered yet. -/
theorem Inv.add (inv : s.Inv) (alive : s.destroyed = false) {r : CallRecord} {nextReqId : UInt64}
    (consistent : r.Consistent) (unregistered : ¬ r.phase.Registered)
    (numbered : r.phase ≠ .returned → r.reqId = UInt64.ofNat (s.issued + 1))
    (next : s.invalid = true ∨ nextReqId = UInt64.ofNat (s.issued + 1 + 1)) :
    RpcAsyncClient.Inv
      { s.setCall s.issued r with issued := s.issued + 1, nextReqId := nextReqId } := by
  have at_call : Function.update s.calls s.issued r s.issued = r := Function.update_self ..
  have elsewhere : ∀ d, d ≠ s.issued → Function.update s.calls s.issued r d = s.calls d :=
    fun d differs => Function.update_of_ne differs ..
  have earlier : ∀ d, d < s.issued + 1 → d ≠ s.issued → d < s.issued := fun d made differs =>
    Nat.lt_of_le_of_ne (Nat.le_of_lt_succ made) differs
  refine ⟨?_, ?_, ?_, inv.apart, next, ?_, ?_, ?_, ?_⟩ <;>
    dsimp only [RpcAsyncClient.setCall]
  · intro d
    by_cases same : d = s.issued
    · rw [same, at_call]
      exact consistent
    · rw [elsewhere d same]
      exact inv.consistent d
  · intro d later
    rw [elsewhere d (Nat.ne_of_gt later)]
    exact inv.unmade d (Nat.le_of_succ_le later)
  · intro reqId d entry
    obtain ⟨made, rest⟩ := inv.pending reqId d entry
    rw [elsewhere d (Nat.ne_of_lt made)]
    exact ⟨Nat.lt_succ_of_lt made, rest⟩
  · intro d made
    by_cases same : d = s.issued
    · subst same
      rw [at_call]
      exact numbered
    · rw [elsewhere d same]
      exact inv.numbered d (earlier d made same)
  · intro few d made
    by_cases same : d = s.issued
    · subst same
      rw [at_call]
      exact fun registered => absurd registered unregistered
    · rw [elsewhere d same]
      exact inv.tracked (Nat.lt_of_succ_lt few) d (earlier d made same)
  · intro destroyed
    rw [alive] at destroyed
    cases destroyed
  · intro swept
    have destroyed := (inv.emptied swept).1
    rw [alive] at destroyed
    cases destroyed

theorem Inv.asyncCall (inv : s.Inv) (alive : s.destroyed = false) (overload : Overload) :
    (s.asyncCall overload).Inv := by
  unfold RpcAsyncClient.asyncCall
  split
  · next invalid =>
      apply inv.add alive _ id (fun open_call => absurd rfl open_call) (Or.inl invalid)
      exact ⟨fun _ _ => rfl, Nat.zero_le _, fun open_call => absurd rfl open_call,
        fun _ => rfl, by simp⟩
  · next valid =>
      have next : s.nextReqId = UInt64.ofNat (s.issued + 1) := by
        rcases inv.next with invalid | next
        · exact absurd invalid valid
        · exact next
      have unregistered : ¬ Phase.Registered
          (if s.chain.isEmpty then .register else .chain s.chain) := by
        split <;> exact id
      have open_call : (if s.chain.isEmpty then Phase.register else .chain s.chain) ≠
          .returned := by
        split <;> nofun
      apply inv.add alive _ unregistered (fun _ => next)
      · refine Or.inr ?_
        rw [next]
        simp
      · exact ⟨fun _ _ => rfl, Nat.zero_le _, fun _ => rfl,
          fun ended => absurd ended open_call, by simp⟩

theorem Inv.preHandle (inv : s.Inv) {c : CallId} (made : c < s.issued)
    {interceptor : Interceptor} {rest : List Interceptor}
    (phase : (s.calls c).phase = .chain (interceptor :: rest)) (verdict : Bool)
    (now later : Int) : (s.preHandle c interceptor rest verdict now later).Inv := by
  have consistent := inv.consistent c
  have open_before : (s.calls c).phase ≠ .returned := by simp [phase]
  have unregistered : ¬ (s.calls c).phase.Registered := by simp [phase, Phase.Registered]
  have early := consistent.early unregistered open_before
  unfold RpcAsyncClient.preHandle
  generalize s.runInterceptor interceptor verdict now later = result
  dsimp only
  split
  · generalize passed : (s.calls c).pass rest = r
    have after : ¬ r.phase.Registered ∧ r.phase ≠ .returned := by
      rw [← passed, CallRecord.pass]
      split <;> exact ⟨id, nofun⟩
    have moved : r.Consistent := by
      subst passed
      exact consistent.move rfl rfl rfl open_before after.2 fun _ => early
    have next := inv.setCall made moved (by rw [← passed]; rfl) (fun _ => open_before)
      (by simp [phase])
      ⟨fun both => absurd both.1 unregistered, fun both => absurd both.1 after.1⟩
    exact next.bookkeeping result.2 s.timers s.handlers _
  · have finished : ((s.calls c).finish .blocked).Consistent :=
      consistent.finish open_before nofun
    have next := inv.setCall made finished rfl (fun _ => open_before) (by simp [phase])
      ⟨fun both => absurd both.1 unregistered, fun both => absurd both.1 id⟩
    exact next.bookkeeping result.2 s.timers s.handlers _

theorem ofNat_succ_injective {c d issued : Nat} (few : issued < 2 ^ 64) (made : c < issued)
    (madeAlso : d < issued) (same : UInt64.ofNat (c + 1) = UInt64.ofNat (d + 1)) : c = d := by
  have value := congrArg UInt64.toNat same
  rw [UInt64.toNat_ofNat', UInt64.toNat_ofNat'] at value
  omega

/-- A call that has been completed has been completed once. -/
theorem Inv.completed_once (inv : s.Inv) {c : CallId} (some_cause : (s.calls c).completions ≠ []) :
    ∃ cause, (s.calls c).completions = [cause] := by
  refine List.length_eq_one_iff.mp (Nat.le_antisymm (inv.consistent c).once ?_)
  exact List.length_pos_iff.mpr some_cause

/-- Calls that are still open have different ids. -/
theorem Inv.reqId_ne (inv : s.Inv) (few : s.issued < 2 ^ 64) {c d : CallId}
    (made : c < s.issued) (madeAlso : d < s.issued) (open_call : (s.calls c).phase ≠ .returned)
    (open_also : (s.calls d).phase ≠ .returned) (differs : d ≠ c) :
    (s.calls d).reqId ≠ (s.calls c).reqId := by
  rw [inv.numbered c made open_call, inv.numbered d madeAlso open_also]
  exact fun same => differs (ofNat_succ_injective few madeAlso made same)

theorem Inv.register (inv : s.Inv) {c : CallId} (made : c < s.issued)
    (phase : (s.calls c).phase = .register) : (s.register c).Inv := by
  have open_before : (s.calls c).phase ≠ .returned := by simp [phase]
  have unregistered : ¬ (s.calls c).phase.Registered := by simp [phase, Phase.Registered]
  have early := (inv.consistent c).early unregistered open_before
  have new : ∀ reqId, ¬ s.Pending reqId c := fun reqId entry =>
    unregistered (inv.pending reqId c entry).2.2.1
  have moved : ((s.calls c).moveTo .arm).Consistent :=
    (inv.consistent c).move rfl rfl rfl open_before nofun fun _ => early
  obtain ⟨promises, callbacks, entered, registered⟩ := s.register_eq c
  rw [registered]
  apply inv.update made moved rfl (fun _ => open_before) (by simp [phase])
  · intro reqId entry
    refine ⟨?_, trivial, early⟩
    by_contra differs
    exact new reqId ((entered.pending_of_ne differs).mp entry)
  · exact fun reqId d differs entry => entered.pending_of_other differs entry
  · exact entered.apart inv (new _)
  · exact fun _ _ _ => entered.here
  · intro few d differs madeAlso open_also entry
    exact (entered.pending_of_ne
      (inv.reqId_ne few made madeAlso open_before open_also differs)).mpr entry
  · intro swept
    have quiet := inv.quiescent (inv.emptied swept).1 c made
    simp [phase] at quiet

/-- A registered call moves on to another registered phase. -/
theorem Inv.moveTo (inv : s.Inv) {c : CallId} (made : c < s.issued) {phase : Phase}
    (before : (s.calls c).phase.Registered) (after : phase.Registered)
    (quiescent : (s.calls c).phase ∈ [.waiting, .detached, .returned] →
      phase ∈ [.waiting, .detached, .returned]) :
    (s.setCall c ((s.calls c).moveTo phase)).Inv := by
  have moved : ((s.calls c).moveTo phase).Consistent :=
    (inv.consistent c).move rfl rfl rfl before.not_returned after.not_returned
      fun early => absurd after early
  exact inv.setCall made moved rfl (fun _ => before.not_returned) quiescent
    (by simp [before, CallRecord.moveTo, after])

theorem Inv.arm (inv : s.Inv) {c : CallId} (made : c < s.issued)
    (phase : (s.calls c).phase = .arm) (timer : Bool) : (s.arm c timer).Inv := by
  have next : (s.setCall c ((s.calls c).moveTo .send)).Inv :=
    inv.moveTo made (by simp [phase, Phase.Registered]) trivial (by simp [phase])
  exact next.bookkeeping s.circuitBreaker _ s.handlers s.breakerCalls

theorem afterSend_mem (s : RpcAsyncClient) (overload : Overload) :
    s.afterSend overload ∈ [.waiting, .detached, .returned] ∧
      (s.afterSend overload).Registered := by
  unfold afterSend
  split <;> exact ⟨by simp, trivial⟩

theorem Inv.send (inv : s.Inv) {c : CallId} (made : c < s.issued)
    (phase : (s.calls c).phase = .send) (outcome : Sent) (now : Int) :
    (s.send c outcome now).Inv := by
  have before : (s.calls c).phase.Registered := by simp [phase, Phase.Registered]
  obtain ⟨quiet, registered⟩ := s.afterSend_mem (s.calls c).overload
  unfold RpcAsyncClient.send
  dsimp only
  split
  · exact inv.moveTo made before registered fun _ => quiet
  · have next : (s.setCall c ((s.calls c).moveTo .failing)).Inv :=
      inv.moveTo made before trivial (by simp [phase])
    exact next.bookkeeping _ s.timers s.handlers _

theorem Inv.fail (inv : s.Inv) {c : CallId} (made : c < s.issued)
    (phase : (s.calls c).phase = .failing) : (s.fail c).Inv := by
  have settled := inv.settle (.timeout (s.calls c).reqId)
  obtain ⟨issued, _, phases⟩ := s.settle_keeps (.timeout (s.calls c).reqId)
  unfold RpcAsyncClient.fail
  generalize s.settle (.timeout (s.calls c).reqId) = next at settled issued phases ⊢
  obtain ⟨quiet, registered⟩ := next.afterSend_mem (next.calls c).overload
  have before : (next.calls c).phase.Registered := by
    rw [phases c, phase]
    trivial
  exact settled.moveTo (issued ▸ made) before registered fun _ => quiet

theorem Inv.resume (inv : s.Inv) {c : CallId} (made : c < s.issued)
    (phase : (s.calls c).phase = .waiting) {cause : Cause} {others : List Cause}
    (completed : (s.calls c).completions = cause :: others) : (s.resume c cause).Inv := by
  have open_before : (s.calls c).phase ≠ .returned := by simp [phase]
  have finished : ((s.calls c).finish cause).Consistent := by
    apply (inv.consistent c).finish open_before
    intro reqId status resp same
    apply (inv.consistent c).own reqId status resp
    rw [completed, same]
    exact List.mem_cons_self ..
  exact inv.setCall made finished rfl (fun _ => open_before) (by simp [CallRecord.finish])
    (by simp [completed, CallRecord.finish])

theorem Inv.step (inv : s.Inv) {event : Event} {next : RpcAsyncClient}
    (taken : s.step event = some next) : next.Inv := by
  cases steps_of_step taken with
  | asyncCall alive overload => exact inv.asyncCall alive overload
  | preHandle made phase verdict now later => exact inv.preHandle made phase verdict now later
  | register made phase => exact inv.register made phase
  | arm made phase timer => exact inv.arm made phase timer
  | send made phase outcome now => exact inv.send made phase outcome now
  | fail made phase => exact inv.fail made phase
  | resume made phase completed => exact inv.resume made phase completed
  | packet packet now => exact inv.onPacket packet now
  | timer armed now =>
      exact (inv.bookkeeping s.circuitBreaker _ s.handlers s.breakerCalls).handleTimeout _ now
  | settle waits =>
      exact (inv.bookkeeping s.circuitBreaker s.timers _ s.breakerCalls).settle _

end Steps

end RpcAsyncClient

end RpcFramework
