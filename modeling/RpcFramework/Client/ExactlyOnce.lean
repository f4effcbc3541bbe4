import RpcFramework.Client.Invariant
import RpcFramework.Lib.StepRun

/-!
# Every call is completed exactly once

The invariant holds along the life of a client.  The destructor finds every
call that is still open, and its loops meet every call at most once.
-/

namespace RpcFramework.RpcAsyncClient

open Client Codec StepRun

section Steps

variable {s : RpcAsyncClient}

/-! ## Destruction -/

theorem completeAll_eq (s : RpcAsyncClient) (entries : List (Σ _ : UInt64, CallId)) :
    ∃ calls, s.completeAll entries = { s with calls := calls } := by
  induction entries generalizing s with
  | nil => exact ⟨s.calls, rfl⟩
  | cons entry rest ih => exact ih (s.complete entry.2 .destroyed)

/-- A loop over distinct calls completes each of them once. -/
theorem completeAll_calls (s : RpcAsyncClient) {entries : List (Σ _ : UInt64, CallId)}
    (distinct : (entries.map Sigma.snd).Nodup) (c : CallId) :
    (s.completeAll entries).calls c =
      if c ∈ entries.map Sigma.snd then
        { s.calls c with completions := .destroyed :: (s.calls c).completions }
      else s.calls c := by
  induction entries generalizing s with
  | nil => rfl
  | cons entry rest ih =>
      rw [List.map_cons, List.nodup_cons] at distinct
      change ((s.complete entry.2 .destroyed).completeAll rest).calls c = _
      rw [ih _ distinct.2, List.map_cons]
      by_cases same : c = entry.2
      · subst same
        rw [if_neg distinct.1, if_pos (List.mem_cons_self ..)]
        exact Function.update_self ..
      · have kept : (s.complete entry.2 .destroyed).calls c = s.calls c :=
          Function.update_of_ne same ..
        rw [kept]
        simp only [List.mem_cons, same, false_or]

theorem mem_entries_iff {table : PendingTable} {entry : Σ _ : UInt64, CallId} :
    entry ∈ table.entries ↔ table.lookup entry.1 = some entry.2 :=
  AList.mem_lookup_iff.symm

/-- The two loops of the destructor meet every call at most once. -/
theorem Inv.distinct_entries (inv : s.Inv) :
    ((s.pendingPromises.entries ++ s.pendingCallbacks.entries).map Sigma.snd).Nodup := by
  have own : ∀ entry ∈ s.pendingPromises.entries ++ s.pendingCallbacks.entries,
      (s.calls entry.2).reqId = entry.1 := by
    intro entry member
    apply (inv.pending entry.1 entry.2 _).2.1
    rcases List.mem_append.mp member with first | second
    · exact Or.inl (mem_entries_iff.mp first)
    · exact Or.inr (mem_entries_iff.mp second)
  apply List.Nodup.map_on
  · intro first inFirst second inSecond same
    have sameId : first.1 = second.1 := by
      rw [← own first inFirst, same, own second inSecond]
    exact Sigma.ext sameId (heq_of_eq same)
  · rw [List.nodup_append]
    refine ⟨s.pendingPromises.nodupKeys.nodup, s.pendingCallbacks.nodupKeys.nodup, ?_⟩
    rintro entry inPromises other inCallbacks rfl
    exact inv.apart entry.1 entry.2 (mem_entries_iff.mp inPromises)
      (mem_entries_iff.mp inCallbacks)

theorem sweep_eq (s : RpcAsyncClient) :
    s.sweep = { s.completeAll (s.pendingPromises.entries ++ s.pendingCallbacks.entries) with
      pendingPromises := ∅, pendingCallbacks := ∅, swept := true } := by
  rw [sweep, completeAll, completeAll, completeAll, List.foldl_append]

/-- The destructor completes the calls that have an entry, and no others. -/
theorem Inv.sweep_calls (inv : s.Inv) (c : CallId) :
    ((∃ reqId, s.Pending reqId c) ∧ s.sweep.calls c = { s.calls c with
      completions := .destroyed :: (s.calls c).completions }) ∨
    ((∀ reqId, ¬ s.Pending reqId c) ∧ s.sweep.calls c = s.calls c) := by
  rw [sweep_eq]
  dsimp only
  rw [completeAll_calls s inv.distinct_entries c]
  by_cases found : c ∈ (s.pendingPromises.entries ++ s.pendingCallbacks.entries).map Sigma.snd
  · rw [if_pos found]
    obtain ⟨entry, member, rfl⟩ := List.mem_map.mp found
    refine Or.inl ⟨⟨entry.1, ?_⟩, rfl⟩
    rcases List.mem_append.mp member with first | second
    · exact Or.inl (mem_entries_iff.mp first)
    · exact Or.inr (mem_entries_iff.mp second)
  · rw [if_neg found]
    refine Or.inr ⟨?_, rfl⟩
    rintro reqId (inPromises | inCallbacks)
    · apply found
      exact List.mem_map.mpr ⟨⟨reqId, c⟩,
        List.mem_append_left _ (mem_entries_iff.mpr inPromises), rfl⟩
    · apply found
      exact List.mem_map.mpr ⟨⟨reqId, c⟩,
        List.mem_append_right _ (mem_entries_iff.mpr inCallbacks), rfl⟩

theorem Inv.sweep (inv : s.Inv) (destroyed : s.destroyed = true) : s.sweep.Inv := by
  have frame : s.sweep.issued = s.issued ∧ s.sweep.invalid = s.invalid ∧
      s.sweep.nextReqId = s.nextReqId ∧ s.sweep.destroyed = s.destroyed := by
    obtain ⟨calls, same⟩ := s.completeAll_eq
      (s.pendingPromises.entries ++ s.pendingCallbacks.entries)
    rw [sweep_eq, same]
    exact ⟨rfl, rfl, rfl, rfl⟩
  have empty : ∀ reqId c, ¬ s.sweep.Pending reqId c := by
    rintro reqId c (entry | entry) <;> cases entry
  have kept : ∀ c, (s.sweep.calls c).phase = (s.calls c).phase ∧
      (s.sweep.calls c).reqId = (s.calls c).reqId := by
    intro c
    rcases inv.sweep_calls c with ⟨_, same⟩ | ⟨_, same⟩ <;> rw [same] <;> exact ⟨rfl, rfl⟩
  obtain ⟨issued, invalid, nextReqId, stillDestroyed⟩ := frame
  refine ⟨?_, ?_, ?_, ?_, ?_, ?_, ?_, ?_, ?_⟩
  · intro c
    rcases inv.sweep_calls c with ⟨⟨reqId, entry⟩, same⟩ | ⟨_, same⟩
    · obtain ⟨_, _, registered, fresh⟩ := inv.pending reqId c entry
      rw [same, fresh]
      exact (inv.consistent c).complete registered rfl rfl rfl rfl nofun
    · rw [same]
      exact inv.consistent c
  · intro c later
    rcases inv.sweep_calls c with ⟨⟨reqId, entry⟩, _⟩ | ⟨_, same⟩
    · exact absurd (inv.pending reqId c entry).1 (Nat.not_lt.mpr (issued ▸ later))
    · rw [same]
      exact inv.unmade c (issued ▸ later)
  · exact fun reqId c entry => absurd entry (empty reqId c)
  · exact fun reqId c entry => absurd (Or.inl entry) (empty reqId c)
  · rw [invalid, nextReqId, issued]
    exact inv.next
  · intro c made
    rw [(kept c).1, (kept c).2]
    exact inv.numbered c (issued ▸ made)
  · intro few c made registered fresh
    rw [issued] at few made
    rcases inv.sweep_calls c with ⟨_, same⟩ | ⟨missing, same⟩
    · rw [same] at fresh
      cases fresh
    · rw [same] at registered fresh
      exact absurd (inv.tracked few c made registered fresh) (missing _)
  · intro _ c made
    rw [(kept c).1]
    exact inv.quiescent destroyed c (issued ▸ made)
  · exact fun _ => ⟨stillDestroyed.trans destroyed, empty⟩

theorem Inv.live (inv : s.Inv) {event : LifeEvent} {next : RpcAsyncClient}
    (taken : s.live event = some next) : next.Inv := by
  cases event with
  | event event => exact inv.step taken
  | destroy =>
      rw [RpcAsyncClient.live] at taken
      split at taken
      · next enabled =>
          cases taken
          exact ⟨inv.consistent, inv.unmade, inv.pending, inv.apart, inv.next, inv.numbered,
            inv.tracked, fun _ => enabled.1, fun swept => ⟨rfl, (inv.emptied swept).2⟩⟩
      · cases taken
  | sweep =>
      rw [RpcAsyncClient.live] at taken
      split at taken
      · next enabled =>
          cases taken
          exact inv.sweep enabled.1
      · cases taken

end Steps

theorem inv_of_run {invalid : Bool} {chain : List Interceptor}
    {circuitBreaker : Option CircuitBreaker} {events : List LifeEvent} {final : RpcAsyncClient}
    (reached : run? live (new invalid chain circuitBreaker) events = some final) : final.Inv :=
  run?_invariant (fun _ _ _ inv taken => inv.live taken) (inv_new invalid chain circuitBreaker)
    reached


/-! ## Completing one call leaves the others pending -/

section Frame

variable {s : RpcAsyncClient}

/-- The entries under other ids than that of the call are the same in both states. -/
def OthersKept (s next : RpcAsyncClient) (c : CallId) : Prop :=
  ∀ other, other ≠ (s.calls c).reqId →
    next.pendingPromises.lookup other = s.pendingPromises.lookup other ∧
      next.pendingCallbacks.lookup other = s.pendingCallbacks.lookup other

theorem Inv.settle_frame (inv : s.Inv) {handler : Handler} {c : CallId}
    (completed : ((s.settle handler).calls c).completions ≠ (s.calls c).completions) :
    s.OthersKept (s.settle handler) c := by
  rcases s.settle_cases handler with ⟨_, stray⟩ | ⟨d, promises, callbacks, _, taken, settled⟩
  · rw [stray] at completed
    exact absurd rfl completed
  · rw [settled] at completed ⊢
    have same : c = d := by
      by_contra differs
      exact completed (congrArg CallRecord.completions (Function.update_of_ne differs ..))
    subst same
    intro other differs
    rw [(inv.pending handler.reqId c taken.found).2.1] at differs
    exact taken.others differs

theorem Inv.step_frame (inv : s.Inv) {event : Event} {next : RpcAsyncClient}
    (taken : s.step event = some next) {c : CallId}
    (completed : (next.calls c).completions ≠ (s.calls c).completions) :
    s.OthersKept next c := by
  have unchanged : ∀ {calls : CallId → CallRecord} {d : CallId} {r : CallRecord},
      r.completions = (calls d).completions → ∀ c,
        (Function.update calls d r c).completions = (calls c).completions :=
    fun same => update_keeps CallRecord.completions same
  cases steps_of_step taken with
  | asyncCall alive overload =>
      have unmade : (s.calls s.issued).completions = [] := by
        rw [inv.unmade s.issued (Nat.le_refl _)]
        rfl
      unfold RpcAsyncClient.asyncCall at completed
      split at completed <;> exact absurd (unchanged (by exact unmade.symm) c) completed
  | preHandle made phase verdict now later =>
      refine absurd (unchanged ?_ c) completed
      split <;> rfl
  | @register d made phase =>
      obtain ⟨promises, callbacks, _, registered⟩ := s.register_eq d
      rw [registered] at completed
      exact absurd (unchanged (by rfl) c) completed
  | arm made phase timer => exact absurd (unchanged (by rfl) c) completed
  | @send d made phase outcome now =>
      rw [RpcAsyncClient.send] at completed
      split at completed <;> exact absurd (unchanged (by rfl) c) completed
  | @fail d made phase =>
      rw [RpcAsyncClient.fail] at completed ⊢
      have settled : ((s.settle (.timeout (s.calls d).reqId)).calls c).completions ≠
          (s.calls c).completions := fun same => completed ((unchanged (by rfl) c).trans same)
      exact inv.settle_frame settled
  | resume made phase others => exact absurd (unchanged (by rfl) c) completed
  | packet packet now =>
      unfold RpcAsyncClient.onPacket at completed
      split at completed <;> exact absurd rfl completed
  | timer armed now =>
      unfold RpcAsyncClient.handleTimeout at completed
      split at completed <;> exact absurd rfl completed
  | settle waits =>
      exact (inv.bookkeeping s.circuitBreaker s.timers _ s.breakerCalls).settle_frame completed

end Frame

/-! ## Whole lives -/

/-- Behind the destructor a registered call has been completed. -/
theorem Inv.completed_of_swept {s : RpcAsyncClient} (inv : s.Inv) (few : s.issued < 2 ^ 64)
    (swept : s.swept = true) {c : CallId} (made : c < s.issued)
    (registered : (s.calls c).phase.Registered) :
    ∃ cause, (s.calls c).completions = [cause] := by
  refine inv.completed_once fun completions => ?_
  exact (inv.emptied swept).2 _ c (inv.tracked few c made registered completions)

/-- A thread that waits for a completed promise can return its value. -/
theorem Inv.resumes {s : RpcAsyncClient} (inv : s.Inv) {c : CallId} (made : c < s.issued)
    (waiting : (s.calls c).phase = .waiting) {cause : Cause}
    (completions : (s.calls c).completions = [cause]) :
    ∃ next, s.step (.resume c) = some next ∧ (next.calls c).phase = .returned ∧
      (next.calls c).returned = (s.calls c).completions := by
  have nothing := (inv.consistent c).open_call (by simp [waiting])
  have after : (s.resume c cause).calls c = (s.calls c).finish cause := Function.update_self ..
  refine ⟨s.resume c cause, ?_, ?_, ?_⟩
  · rw [RpcAsyncClient.step, if_pos ⟨made, waiting⟩, completions]
  · rw [after]
    rfl
  · rw [after, completions, CallRecord.finish, nothing]

/--
However the steps of the calls, the packets, the timers and the destructor
interleave: no call is completed twice, a response that completes a call
carried its id, completing a call leaves the entries under other ids in place,
and when the destructor has run every call has its one result.  The thread of a
call that waits for its promise can then return it.
-/
theorem calls_completed_exactly_once {invalid : Bool} {chain : List Interceptor}
    {circuitBreaker : Option CircuitBreaker} {events : List LifeEvent} {final : RpcAsyncClient}
    (reached : run? live (new invalid chain circuitBreaker) events = some final)
    (few : final.issued < 2 ^ 64) :
    (∀ c, (final.calls c).completions.length ≤ 1 ∧ (final.calls c).returned.length ≤ 1 ∧
      ∀ reqId status resp, Cause.response reqId status resp ∈
        (final.calls c).completions ++ (final.calls c).returned →
          reqId = (final.calls c).reqId) ∧
    (∀ event next c, final.step event = some next →
      (next.calls c).completions ≠ (final.calls c).completions → final.OthersKept next c) ∧
    (final.swept = true → ∀ c < final.issued,
      (final.calls c).phase = .returned ∧ (final.calls c).returned.length = 1 ∨
      (final.calls c).phase = .detached ∧ (final.calls c).completions.length = 1 ∨
      (final.calls c).phase = .waiting ∧ (final.calls c).completions.length = 1 ∧
        ∃ next, final.step (.resume c) = some next ∧ (next.calls c).phase = .returned ∧
          (next.calls c).returned = (final.calls c).completions) := by
  have inv := inv_of_run reached
  refine ⟨?_, ?_, ?_⟩
  · intro c
    have consistent := inv.consistent c
    refine ⟨consistent.once, ?_, consistent.own⟩
    by_cases ended : (final.calls c).phase = .returned
    · exact Nat.le_of_eq (consistent.ended ended)
    · rw [consistent.open_call ended]
      exact Nat.zero_le 1
  · exact fun event next c taken completed => inv.step_frame taken completed
  · intro swept c made
    have consistent := inv.consistent c
    have quiet := inv.quiescent (inv.emptied swept).1 c made
    simp only [List.mem_cons, List.not_mem_nil, or_false] at quiet
    rcases quiet with waiting | detached | returned
    · obtain ⟨cause, completions⟩ := inv.completed_of_swept few swept made
        (by rw [waiting]; trivial)
      exact Or.inr (Or.inr ⟨waiting, by rw [completions]; rfl,
        inv.resumes made waiting completions⟩)
    · obtain ⟨cause, completions⟩ := inv.completed_of_swept few swept made
        (by rw [detached]; trivial)
      exact Or.inr (Or.inl ⟨detached, by rw [completions]; rfl⟩)
    · exact Or.inl ⟨returned, consistent.ended returned⟩

/-- Two calls: one is answered while its timer fires, the other is open when the
client is destroyed. -/
def sampleLife : List LifeEvent :=
  [.event (.asyncCall .future), .event (.register 0), .event (.arm 0 true),
    .event (.asyncCall .callback), .event (.register 1), .event (.send 0 .sent 0),
    .event (.arm 1 false), .event (.send 1 .sent 0), .event (.packet (.fresh .response 1) 0),
    .event (.timer 1 0), .event (.settle 1), .event (.settle 0), .event (.resume 0),
    .event (.packet (.fresh .response 7) 0), .destroy, .event (.settle 0), .sweep]

theorem calls_completed_exactly_once_sampleLife :
    ∃ final, run? live (new false [] none) sampleLife = some final ∧ final.issued = 2 ∧
      final.swept = true ∧ ∀ c < 2,
        (final.calls c).phase = .returned ∧ (final.calls c).returned.length = 1 ∨
        (final.calls c).phase = .detached ∧ (final.calls c).completions.length = 1 ∨
        (final.calls c).phase = .waiting ∧ (final.calls c).completions.length = 1 ∧
          ∃ next, final.step (.resume c) = some next ∧ (next.calls c).phase = .returned ∧
            (next.calls c).returned = (final.calls c).completions := by
  obtain ⟨final, reached, issued, swept⟩ : ∃ final,
      run? live (new false [] none) sampleLife = some final ∧ final.issued = 2 ∧
        final.swept = true := ⟨_, rfl, rfl, rfl⟩
  have few : final.issued < 2 ^ 64 := by rw [issued]; decide
  have completed := (calls_completed_exactly_once reached few).2.2 swept
  rw [issued] at completed
  exact ⟨final, reached, issued, swept, completed⟩

end RpcFramework.RpcAsyncClient
