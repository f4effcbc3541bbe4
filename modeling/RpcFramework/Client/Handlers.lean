import RpcFramework.Client.Calls

/-!
# Handlers and the pending tables

What a handler does to the client under the lock of the tables: if it finds an
entry under its id it takes the entry out and completes the call.
-/

namespace RpcFramework.RpcAsyncClient

open Client Codec

/-- The call has an entry under the id in one of the tables. -/
def InTables (promises callbacks : PendingTable) (reqId : UInt64) (c : CallId) : Prop :=
  promises.lookup reqId = some c ∨ callbacks.lookup reqId = some c

def Pending (s : RpcAsyncClient) : UInt64 → CallId → Prop :=
  InTables s.pendingPromises s.pendingCallbacks

/-- The tables after the entry that a handler found has been taken out. -/
inductive Taken (s : RpcAsyncClient) (reqId : UInt64) (c : CallId) :
    PendingTable → PendingTable → Prop
  | promise (found : s.pendingPromises.lookup reqId = some c) :
      Taken s reqId c (s.pendingPromises.erase reqId) s.pendingCallbacks
  | callback (absent : s.pendingPromises.lookup reqId = none)
      (found : s.pendingCallbacks.lookup reqId = some c) :
      Taken s reqId c s.pendingPromises (s.pendingCallbacks.erase reqId)

section Tables

variable {s : RpcAsyncClient} {reqId : UInt64} {c : CallId} {promises callbacks : PendingTable}

theorem Taken.found (taken : s.Taken reqId c promises callbacks) : s.Pending reqId c := by
  cases taken with
  | promise found => exact Or.inl found
  | callback absent found => exact Or.inr found

theorem Taken.others (taken : s.Taken reqId c promises callbacks) {other : UInt64}
    (differs : other ≠ reqId) :
    promises.lookup other = s.pendingPromises.lookup other ∧
      callbacks.lookup other = s.pendingCallbacks.lookup other := by
  cases taken with
  | promise found => exact ⟨AList.lookup_erase_ne differs, rfl⟩
  | callback absent found => exact ⟨rfl, AList.lookup_erase_ne differs⟩

/-- The tables after an entry has been made. -/
inductive Entered (s : RpcAsyncClient) (reqId : UInt64) (c : CallId) :
    PendingTable → PendingTable → Prop
  | promise : Entered s reqId c (s.pendingPromises.insert reqId c) s.pendingCallbacks
  | callback : Entered s reqId c s.pendingPromises (s.pendingCallbacks.insert reqId c)

theorem Entered.here (entered : s.Entered reqId c promises callbacks) :
    InTables promises callbacks reqId c := by
  cases entered with
  | promise => exact Or.inl (AList.lookup_insert _)
  | callback => exact Or.inr (AList.lookup_insert _)

theorem Entered.others (entered : s.Entered reqId c promises callbacks) {other : UInt64}
    (differs : other ≠ reqId) :
    promises.lookup other = s.pendingPromises.lookup other ∧
      callbacks.lookup other = s.pendingCallbacks.lookup other := by
  cases entered with
  | promise => exact ⟨AList.lookup_insert_ne differs, rfl⟩
  | callback => exact ⟨rfl, AList.lookup_insert_ne differs⟩

theorem Entered.pending_of_ne (entered : s.Entered reqId c promises callbacks)
    {other : UInt64} {d : CallId} (differs : other ≠ reqId) :
    InTables promises callbacks other d ↔ s.Pending other d := by
  obtain ⟨inPromises, inCallbacks⟩ := entered.others differs
  rw [InTables, inPromises, inCallbacks]
  rfl

theorem Entered.pending_of_other (entered : s.Entered reqId c promises callbacks)
    {other : UInt64} {d : CallId} (differs : d ≠ c)
    (entry : InTables promises callbacks other d) : s.Pending other d := by
  by_cases same : other = reqId
  · subst same
    cases entered with
    | promise =>
        rw [InTables, AList.lookup_insert] at entry
        rcases entry with new | old
        · exact absurd (Option.some.inj new).symm differs
        · exact Or.inr old
    | callback =>
        rw [InTables, AList.lookup_insert] at entry
        rcases entry with old | new
        · exact Or.inl old
        · exact absurd (Option.some.inj new).symm differs
  · exact (entered.pending_of_ne same).mp entry

end Tables

/-- A handler takes the entry it finds out and completes its call, or it is stray. -/
theorem settle_cases (s : RpcAsyncClient) (handler : Handler) :
    (s.pendingCall handler.reqId = none ∧ s.settle handler = s) ∨
    ∃ c promises callbacks, s.pendingCall handler.reqId = some c ∧
      s.Taken handler.reqId c promises callbacks ∧
      s.settle handler = { s.answer c handler with
        pendingPromises := promises, pendingCallbacks := callbacks } := by
  cases promise : s.pendingPromises.lookup handler.reqId with
  | some c =>
      refine Or.inr ⟨c, _, _, ?_, .promise promise, ?_⟩
      · rw [pendingCall, promise, Option.some_or]
      · rw [settle, promise]
        rfl
  | none =>
      cases callback : s.pendingCallbacks.lookup handler.reqId with
      | some c =>
          refine Or.inr ⟨c, _, _, ?_, .callback promise callback, ?_⟩
          · rw [pendingCall, promise, Option.none_or, callback]
          · rw [settle, promise]
            dsimp only
            rw [callback]
            rfl
      | none =>
          refine Or.inl ⟨?_, ?_⟩
          · rw [pendingCall, promise, Option.none_or, callback]
          · rw [settle, promise]
            dsimp only
            rw [callback]

/-- What a change of one call keeps of that call, it keeps of every call. -/
theorem update_keeps {α : Type} {calls : CallId → CallRecord} {d : CallId} {r : CallRecord}
    (field : CallRecord → α) (same : field r = field (calls d)) (c : CallId) :
    field (Function.update calls d r c) = field (calls c) := by
  by_cases here : c = d
  · subst here
    rw [Function.update_self]
    exact same
  · rw [Function.update_of_ne here]

/-- A handler leaves everything of a call but its history in place. -/
theorem settle_keeps (s : RpcAsyncClient) (handler : Handler) :
    (s.settle handler).issued = s.issued ∧ (s.settle handler).chain = s.chain ∧
      ∀ c, ((s.settle handler).calls c).phase = (s.calls c).phase := by
  rcases s.settle_cases handler with ⟨_, stray⟩ | ⟨c, promises, callbacks, _, _, settled⟩
  · rw [stray]
    exact ⟨rfl, rfl, fun _ => rfl⟩
  · rw [settled]
    exact ⟨rfl, rfl, fun d => update_keeps CallRecord.phase (by rfl) d⟩

theorem settle_reqId (s : RpcAsyncClient) (handler : Handler) (c : CallId) :
    ((s.settle handler).calls c).reqId = (s.calls c).reqId := by
  rcases s.settle_cases handler with ⟨_, stray⟩ | ⟨d, promises, callbacks, _, _, settled⟩
  · rw [stray]
  · rw [settled]
    exact update_keeps CallRecord.reqId (by rfl) c

theorem register_eq (s : RpcAsyncClient) (c : CallId) :
    ∃ promises callbacks, s.Entered (s.calls c).reqId c promises callbacks ∧
      s.register c = { s.setCall c ((s.calls c).moveTo .arm) with
        pendingPromises := promises, pendingCallbacks := callbacks } := by
  unfold register
  dsimp only
  split
  · exact ⟨_, _, .callback, rfl⟩
  · exact ⟨_, _, .promise, rfl⟩

end RpcFramework.RpcAsyncClient
