import RpcFramework.Client.ExactlyOnce

/-!
# What a call hears

A call whose packet was sent is completed by what its handlers bring: what it
has heard came from a handler of the client, and a handler that carries its id
is either still waiting for the lock or has completed it.
-/

namespace RpcFramework.Client

/-- The packet of the call has been dealt with, and the call returns only with a result. -/
def CallRecord.Sent (r : CallRecord) : Prop :=
  r.phase = .waiting ∨ r.phase = .detached ∨ (r.phase = .returned ∧ r.completions ≠ [])

/-- How the record of a call changes in a step that may give it new results. -/
structure CallRecord.Advances (Given : Cause → Prop) (r next : CallRecord) : Prop where
  sameId : next.reqId = r.reqId
  sent : r.Sent → next.Sent
  kept : ∀ cause ∈ r.completions, cause ∈ next.completions
  given : ∀ cause ∈ next.completions ++ next.returned,
    cause ∈ r.completions ++ r.returned ∨ Given cause

namespace CallRecord

variable {Given : Cause → Prop} {r middle next : CallRecord}

theorem Advances.refl (r : CallRecord) : r.Advances Given r :=
  ⟨rfl, id, fun _ member => member, fun _ member => Or.inl member⟩

theorem Advances.trans (first : r.Advances Given middle) (second : middle.Advances Given next) :
    r.Advances Given next := by
  refine ⟨second.sameId.trans first.sameId, fun sent => second.sent (first.sent sent), ?_, ?_⟩
  · exact fun cause member => second.kept cause (first.kept cause member)
  · intro cause member
    rcases second.given cause member with earlier | new
    · exact first.given cause earlier
    · exact Or.inr new

/-- A call that had not been sent and keeps its history. -/
theorem Advances.of_unsent (unsent : ¬ r.Sent) (sameId : next.reqId = r.reqId)
    (completions : next.completions = r.completions) (returned : next.returned = r.returned) :
    r.Advances Given next := by
  refine ⟨sameId, fun sent => absurd sent unsent, ?_, ?_⟩
  · rw [completions]
    exact fun _ member => member
  · rw [completions, returned]
    exact fun _ member => Or.inl member

theorem Advances.moveTo (unsent : ¬ r.Sent) (phase : Phase) : r.Advances Given (r.moveTo phase) :=
  .of_unsent unsent rfl rfl rfl

theorem Advances.answered {handler : Handler} (given : Given handler.cause) :
    r.Advances Given (r.answered handler) := by
  refine ⟨rfl, ?_, fun cause member => List.mem_cons_of_mem _ member, ?_⟩
  · rintro (waiting | detached | ⟨returned, _⟩)
    · exact Or.inl waiting
    · exact Or.inr (Or.inl detached)
    · exact Or.inr (Or.inr ⟨returned, List.cons_ne_nil _ _⟩)
  · intro cause member
    rcases List.mem_cons.mp member with same | earlier
    · rw [same]
      exact Or.inr given
    · exact Or.inl earlier

/-- The call returns with its result, or with a result that its own thread gives it. -/
theorem Advances.finish {cause : Cause}
    (result : cause ∈ r.completions ∨ Given cause ∧ ¬ r.Sent) :
    r.Advances Given (r.finish cause) := by
  refine ⟨rfl, ?_, fun _ member => member, ?_⟩
  · intro sent
    rcases result with completed | ⟨_, unsent⟩
    · exact Or.inr (Or.inr ⟨rfl, List.ne_nil_of_mem completed⟩)
    · exact absurd sent unsent
  · intro other member
    change other ∈ r.completions ++ cause :: r.returned at member
    rcases List.mem_append.mp member with earlier | later
    · exact Or.inl (List.mem_append_left _ earlier)
    · rcases List.mem_cons.mp later with rfl | older
      · rcases result with completed | ⟨given, _⟩
        · exact Or.inl (List.mem_append_left _ completed)
        · exact Or.inr given
      · exact Or.inl (List.mem_append_right _ older)

theorem not_sent_of_phase {phase : Phase} (here : r.phase = phase)
    (early : phase ∉ [.waiting, .detached, .returned]) : ¬ r.Sent := by
  rintro (waiting | detached | ⟨returned, _⟩)
  · exact early (by rw [← here, waiting]; simp)
  · exact early (by rw [← here, detached]; simp)
  · exact early (by rw [← here, returned]; simp)

end CallRecord

end Client

namespace RpcAsyncClient

open Client Codec

/-- A result that a call may be given: one of a handler, or one that the client makes up. -/
def Gives (s : RpcAsyncClient) (cause : Cause) : Prop :=
  (∀ reqId status resp, cause ≠ .response reqId status resp) ∨
    ∃ handler ∈ s.handlers, handler.cause = cause

section Steps

variable {s next : RpcAsyncClient}

/-- A change of one call, seen from every call. -/
theorem advances_update {Given : Cause → Prop} {d : CallId} {r : CallRecord}
    (change : (s.calls d).Advances Given r) (c : CallId) :
    (s.calls c).Advances Given (Function.update s.calls d r c) := by
  by_cases same : c = d
  · subst same
    rw [Function.update_self]
    exact change
  · rw [Function.update_of_ne same]
    exact .refl _

theorem gives_timeout (s : RpcAsyncClient) (reqId : UInt64) :
    s.Gives (Handler.timeout reqId).cause := by
  refine Or.inl ?_
  intro reqId status resp impossible
  cases impossible

theorem settle_advances {Given : Cause → Prop} {handler : Handler} (given : Given handler.cause)
    (c : CallId) : (s.calls c).Advances Given ((s.settle handler).calls c) := by
  rcases s.settle_cases handler with ⟨_, stray⟩ | ⟨d, promises, callbacks, _, _, settled⟩
  · rw [stray]
    exact .refl _
  · rw [settled]
    exact advances_update (.answered given) c

/-- What a step does to a call that was made before. -/
theorem step_advances {event : Event} (taken : s.step event = some next)
    {c : CallId} (made : c < s.issued) :
    (s.calls c).Advances s.Gives (next.calls c) := by
  cases steps_of_step taken with
  | asyncCall alive overload =>
      have other : c ≠ s.issued := Nat.ne_of_lt made
      unfold RpcAsyncClient.asyncCall
      split
      · change (s.calls c).Advances _ (Function.update s.calls s.issued _ c)
        rw [Function.update_of_ne other]
        exact .refl _
      · change (s.calls c).Advances _ (Function.update s.calls s.issued _ c)
        rw [Function.update_of_ne other]
        exact .refl _
  | @preHandle d _ interceptor rest phase verdict now later =>
      have unsent : ¬ (s.calls d).Sent := CallRecord.not_sent_of_phase phase (by simp)
      apply advances_update
      split
      · exact .of_unsent unsent rfl rfl rfl
      · refine .finish (Or.inr ⟨Or.inl ?_, unsent⟩)
        intro reqId status resp impossible
        cases impossible
  | @register d _ phase =>
      obtain ⟨promises, callbacks, _, registered⟩ := s.register_eq d
      rw [registered]
      exact advances_update (.moveTo (CallRecord.not_sent_of_phase phase (by simp)) _) c
  | arm _ phase timer =>
      exact advances_update (.moveTo (CallRecord.not_sent_of_phase phase (by simp)) _) c
  | @send d _ phase outcome now =>
      have unsent : ¬ (s.calls d).Sent := CallRecord.not_sent_of_phase phase (by simp)
      unfold RpcAsyncClient.send
      dsimp only
      split
      · exact advances_update (.moveTo unsent _) c
      · exact advances_update (.moveTo unsent _) c
  | @fail d _ phase =>
      have settled := s.settle_advances (s.gives_timeout (s.calls d).reqId) c
      obtain ⟨_, _, phases⟩ := s.settle_keeps (.timeout (s.calls d).reqId)
      have unsent : ¬ ((s.settle (.timeout (s.calls d).reqId)).calls d).Sent :=
        CallRecord.not_sent_of_phase ((phases d).trans phase) (by simp)
      exact settled.trans (advances_update (.moveTo unsent _) c)
  | resume _ phase completed =>
      refine advances_update (.finish (Or.inl ?_)) c
      rw [completed]
      exact List.mem_cons_self ..
  | packet packet now =>
      unfold RpcAsyncClient.onPacket
      split
      · exact .refl _
      · exact .refl _
  | timer armed now =>
      unfold RpcAsyncClient.handleTimeout
      split
      · exact .refl _
      · exact .refl _
  | @settle i handler waits =>
      exact settle_advances (s := { s with handlers := s.handlers.eraseIdx i })
        (Or.inr ⟨handler, List.mem_of_getElem? waits, rfl⟩) c

theorem settle_leaves (s : RpcAsyncClient) (handler : Handler) :
    (s.settle handler).handlers = s.handlers ∧ (s.settle handler).invalid = s.invalid := by
  rcases s.settle_cases handler with ⟨_, stray⟩ | ⟨c, promises, callbacks, _, _, settled⟩
  · rw [stray]
    exact ⟨rfl, rfl⟩
  · rw [settled]
    exact ⟨rfl, rfl⟩

theorem settle_first {s : RpcAsyncClient} {handler : Handler} {others : List Handler}
    (handlers : s.handlers = handler :: others) :
    ∃ next, s.step (.settle 0) = some next ∧ next.handlers = others ∧ next.issued = s.issued := by
  have first : s.handlers[0]? = some handler := by
    rw [handlers]
    rfl
  refine ⟨{ s with handlers := s.handlers.eraseIdx 0 }.settle handler, ?_, ?_, ?_⟩
  · simp only [step, first]
  · rw [(settle_leaves _ handler).1, handlers]
    rfl
  · exact (settle_keeps _ handler).1

/-- The handlers after a step: those before, less the one that has settled, and
the one that the step has started. -/
inductive HandlersAfter (s : RpcAsyncClient) : Event → List Handler → Prop
  | same (event : Event) : HandlersAfter s event s.handlers
  | timeout (event : Event) (reqId : UInt64) : HandlersAfter s event (.timeout reqId :: s.handlers)
  | packet {packet : DecodedPacket} (now : Int) (kind : packet.msgType = .response) :
      HandlersAfter s (.packet packet now) (.response packet :: s.handlers)
  | settled (i : Nat) : HandlersAfter s (.settle i) (s.handlers.eraseIdx i)

theorem asyncCall_frame (s : RpcAsyncClient) (overload : Overload) :
    (s.asyncCall overload).issued = s.issued + 1 ∧
      (s.asyncCall overload).handlers = s.handlers ∧
      (s.asyncCall overload).invalid = s.invalid := by
  unfold RpcAsyncClient.asyncCall
  split
  · exact ⟨rfl, rfl, rfl⟩
  · exact ⟨rfl, rfl, rfl⟩

/-- What a step does to the client itself: only `asyncCall` makes a call. -/
theorem step_leaves {event : Event} (taken : s.step event = some next) :
    s.HandlersAfter event next.handlers ∧ next.invalid = s.invalid ∧
      (next.issued = s.issued ∨ ∃ overload, next = s.asyncCall overload) := by
  cases steps_of_step taken with
  | asyncCall alive overload =>
      obtain ⟨_, handlers, invalid⟩ := s.asyncCall_frame overload
      rw [handlers]
      exact ⟨.same _, invalid, Or.inr ⟨overload, rfl⟩⟩
  | preHandle | arm | resume => exact ⟨.same _, rfl, Or.inl rfl⟩
  | @register d =>
      obtain ⟨promises, callbacks, _, registered⟩ := s.register_eq d
      rw [registered]
      exact ⟨.same _, rfl, Or.inl rfl⟩
  | send _ _ outcome now =>
      unfold RpcAsyncClient.send
      dsimp only
      split
      · exact ⟨.same _, rfl, Or.inl rfl⟩
      · exact ⟨.same _, rfl, Or.inl rfl⟩
  | @fail d =>
      obtain ⟨handlers, invalid⟩ := s.settle_leaves (.timeout (s.calls d).reqId)
      refine ⟨?_, invalid, Or.inl (s.settle_keeps _).1⟩
      change s.HandlersAfter _ (s.settle (.timeout (s.calls d).reqId)).handlers
      rw [handlers]
      exact .same _
  | packet packet now =>
      unfold RpcAsyncClient.onPacket
      split
      · next kind => exact ⟨.packet now kind, rfl, Or.inl rfl⟩
      · exact ⟨.same _, rfl, Or.inl rfl⟩
  | timer armed now =>
      unfold RpcAsyncClient.handleTimeout
      split
      · exact ⟨.same _, rfl, Or.inl rfl⟩
      · exact ⟨.timeout _ _, rfl, Or.inl rfl⟩
  | @settle i handler waits =>
      obtain ⟨handlers, invalid⟩ := settle_leaves { s with handlers := s.handlers.eraseIdx i } handler
      rw [handlers]
      exact ⟨.settled i, invalid, Or.inl (settle_keeps _ handler).1⟩

/-- A sent call that has no result has its entry, and nobody else has one under its id. -/
theorem Inv.pendingCall_of_sent (inv : s.Inv) (few : s.issued < 2 ^ 64) {c : CallId}
    (made : c < s.issued) (sent : (s.calls c).Sent) (fresh : (s.calls c).completions = []) :
    s.pendingCall (s.calls c).reqId = some c := by
  have registered : (s.calls c).phase.Registered := by
    rcases sent with waiting | detached | ⟨_, completed⟩
    · rw [waiting]
      trivial
    · rw [detached]
      trivial
    · exact absurd fresh completed
  have pending := inv.tracked few c made registered fresh
  have only : ∀ d, s.Pending (s.calls c).reqId d → d = c := by
    intro d entry
    obtain ⟨madeAlso, sameId, registeredAlso, _⟩ := inv.pending _ d entry
    by_contra differs
    exact inv.reqId_ne few made madeAlso registered.not_returned registeredAlso.not_returned
      differs sameId
  cases promise : s.pendingPromises.lookup (s.calls c).reqId with
  | some d =>
      rw [pendingCall, promise, Option.some_or, only d (Or.inl promise)]
  | none =>
      rcases pending with impossible | callback
      · rw [promise] at impossible
        cases impossible
      · rw [pendingCall, promise, Option.none_or, callback]

/-- A handler with the id of a sent call goes on waiting until the call has its result. -/
theorem Inv.step_owed (inv : s.Inv) (few : s.issued < 2 ^ 64) {event : Event}
    (taken : s.step event = some next) {c : CallId} (made : c < s.issued)
    (sent : (s.calls c).Sent) {handler : Handler} (waits : handler ∈ s.handlers)
    (own : handler.reqId = (s.calls c).reqId) :
    handler ∈ next.handlers ∨ (next.calls c).completions ≠ [] := by
  have handlers := (step_leaves taken).1
  generalize remaining : next.handlers = after at handlers
  cases handlers with
  | same => exact Or.inl waits
  | timeout event reqId => exact Or.inl (List.mem_cons_of_mem _ waits)
  | packet now kind => exact Or.inl (List.mem_cons_of_mem _ waits)
  | settled i =>
      obtain ⟨j, found⟩ := List.mem_iff_getElem?.mp waits
      by_cases other : j = i
      · subst other
        refine Or.inr ?_
        cases steps_of_step taken with
        | settle same =>
            cases found.symm.trans same
            by_cases fresh : (s.calls c).completions = []
            · have entry := inv.pendingCall_of_sent few made sent fresh
              rw [← own] at entry
              rcases settle_cases { s with handlers := s.handlers.eraseIdx j } handler with
                ⟨stray, _⟩ | ⟨d, promises, callbacks, found, _, settled⟩
              · cases stray.symm.trans entry
              · cases found.symm.trans entry
                rw [settled]
                change (Function.update s.calls c _ c).completions ≠ []
                rw [Function.update_self]
                exact List.cons_ne_nil _ _
            · obtain ⟨cause, member⟩ := List.exists_mem_of_ne_nil _ fresh
              exact List.ne_nil_of_mem ((step_advances taken made).kept cause member)
      · exact Or.inl (List.mem_eraseIdx_iff_getElem?.mpr ⟨j, other, found⟩)

theorem issued_le {event : Event} (taken : s.step event = some next) :
    s.issued ≤ next.issued := by
  obtain ⟨_, _, same | ⟨overload, rfl⟩⟩ := step_leaves taken
  · exact Nat.le_of_eq same.symm
  · rw [(s.asyncCall_frame overload).1]
    exact Nat.le_succ _

/-- The calls of a valid client are numbered from one. -/
structure Numbered (s : RpcAsyncClient) : Prop where
  valid : s.invalid = false
  reqId : ∀ c < s.issued, (s.calls c).reqId = UInt64.ofNat (c + 1)

theorem Numbered.step (numbered : s.Numbered) (inv : s.Inv) {event : Event}
    (taken : s.step event = some next) : next.Numbered := by
  obtain ⟨_, sameValid, issues⟩ := step_leaves taken
  refine ⟨sameValid.trans numbered.valid, ?_⟩
  intro c made
  by_cases before : c < s.issued
  · rw [(step_advances taken before).sameId]
    exact numbered.reqId c before
  · rcases issues with same | ⟨overload, rfl⟩
    · exact absurd (same ▸ made) before
    · rw [(s.asyncCall_frame overload).1] at made
      have new : c = s.issued := Nat.le_antisymm (Nat.le_of_lt_succ made) (Nat.le_of_not_lt before)
      have next := inv.next.resolve_left (by rw [numbered.valid]; exact Bool.false_ne_true)
      rw [RpcAsyncClient.asyncCall, numbered.valid, new]
      change (Function.update s.calls s.issued _ s.issued).reqId = _
      rw [Function.update_self]
      exact next

/-- A call that has just been made has heard nothing. -/
theorem Numbered.heard_nothing (numbered : s.Numbered) {event : Event}
    (taken : s.step event = some next) {c : CallId} (new : s.issued ≤ c)
    (made : c < next.issued) : (next.calls c).completions ++ (next.calls c).returned = [] := by
  rcases (step_leaves taken).2.2 with same | ⟨overload, rfl⟩
  · exact absurd (same ▸ made) (Nat.not_lt.mpr new)
  · rw [(s.asyncCall_frame overload).1] at made
    have here : c = s.issued := Nat.le_antisymm (Nat.le_of_lt_succ made) new
    rw [RpcAsyncClient.asyncCall, numbered.valid, here]
    change (Function.update s.calls s.issued _ s.issued).completions ++
      (Function.update s.calls s.issued _ s.issued).returned = []
    rw [Function.update_self]
    rfl

/-- Different calls of a valid client have different ids. -/
theorem Numbered.injective (numbered : s.Numbered) (few : s.issued < 2 ^ 64) {c d : CallId}
    (made : c < s.issued) (madeAlso : d < s.issued)
    (same : (s.calls c).reqId = (s.calls d).reqId) : c = d := by
  rw [numbered.reqId c made, numbered.reqId d madeAlso] at same
  exact ofNat_succ_injective few made madeAlso same

end Steps

end RpcAsyncClient

end RpcFramework
