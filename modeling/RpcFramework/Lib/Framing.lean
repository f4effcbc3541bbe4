import Mathlib.Data.List.Basic

/-!
# Framed streams read in chunks

A decoder keeps the symbols it has not used yet.  Chunks are appended to them,
and after every chunk the decoder is called until a call yields no message.
Each call is logged with the reader it was made on.

If every frame of a stream is delimited, so that a call on a buffered frame
uses up exactly that frame and a call on a proper prefix of it waits, then the
chunk boundaries do not matter: the calls yield the verdicts of the frames, in
order, and a frame that is refused only ends the current round of calls.

A receiver may also go on calling after a call that only skips symbols, until a
call neither yields a message nor uses a symbol up.
-/

namespace Framing

/-- An incremental decoder.  A call that yields a message uses up a symbol. -/
structure Decoder (Reader Symbol Message : Type) where
  unread : Reader → List Symbol
  append : Reader → List Symbol → Reader
  decode : Reader → Option Message × Reader
  unread_append : ∀ reader chunk, unread (append reader chunk) = unread reader ++ chunk
  decode_le : ∀ reader, (unread (decode reader).2).length ≤ (unread reader).length
  decode_shrinks : ∀ reader message next, decode reader = (some message, next) →
    (unread next).length < (unread reader).length

variable {Reader Symbol Message Frame : Type}

/-- Call the decoder until a call yields nothing, logging every call. -/
def drain (d : Decoder Reader Symbol Message) (reader : Reader) :
    List (Reader × Option Message) × Reader :=
  match _called : d.decode reader with
  | (none, next) => ([(reader, none)], next)
  | (some message, next) =>
      let later := drain d next
      ((reader, some message) :: later.1, later.2)
termination_by (d.unread reader).length
decreasing_by exact d.decode_shrinks reader message next _called

/-- Append the chunks one by one, draining the decoder after each. -/
def feed (d : Decoder Reader Symbol Message) :
    Reader → List (List Symbol) → List (Reader × Option Message) × Reader
  | reader, [] => ([], reader)
  | reader, chunk :: chunks =>
      let drained := drain d (d.append reader chunk)
      let later := feed d drained.2 chunks
      (drained.1 ++ later.1, later.2)

/-- The messages of a log, in the order of the calls. -/
def decoded (log : List (Reader × Option Message)) : List Message :=
  log.filterMap Prod.snd

@[simp]
theorem decoded_append (first second : List (Reader × Option Message)) :
    decoded (first ++ second) = decoded first ++ decoded second :=
  List.filterMap_append

theorem drain_of_none {d : Decoder Reader Symbol Message} {reader next : Reader}
    (called : d.decode reader = (none, next)) :
    drain d reader = ([(reader, none)], next) := by
  rw [drain]
  split
  · next other also =>
      cases also.symm.trans called
      rfl
  · next message other also => cases also.symm.trans called

theorem drain_of_some {d : Decoder Reader Symbol Message} {reader next : Reader}
    {message : Message} (called : d.decode reader = (some message, next)) :
    drain d reader = ((reader, some message) :: (drain d next).1, (drain d next).2) := by
  rw [drain]
  split
  · next other also => cases also.symm.trans called
  · next found other also =>
      cases also.symm.trans called
      rfl

/-- A chunk after which the first call yields nothing adds no message. -/
theorem decoded_feed_of_none {d : Decoder Reader Symbol Message} {reader next : Reader}
    {chunk : List Symbol} (called : d.decode (d.append reader chunk) = (none, next))
    (chunks : List (List Symbol)) :
    decoded (feed d reader (chunk :: chunks)).1 = decoded (feed d next chunks).1 := by
  rw [feed, drain_of_none called]
  rfl

theorem mem_decoded_feed_of_some {d : Decoder Reader Symbol Message} {reader next : Reader}
    {chunk : List Symbol} {message : Message}
    (called : d.decode (d.append reader chunk) = (some message, next))
    (chunks : List (List Symbol)) :
    message ∈ decoded (feed d reader (chunk :: chunks)).1 := by
  rw [feed, drain_of_some called, decoded_append]
  exact List.mem_append_left _ (List.mem_cons_self ..)

/-- Induction along the calls of one round. -/
theorem drain_induction (d : Decoder Reader Symbol Message) {motive : Reader → Prop}
    (ends : ∀ reader next, d.decode reader = (none, next) → motive reader)
    (goes : ∀ reader message next, d.decode reader = (some message, next) →
      motive next → motive reader)
    (reader : Reader) : motive reader := by
  induction size : (d.unread reader).length using Nat.strongRecOn
    generalizing reader with
  | _ size ih =>
      cases called : d.decode reader with
      | mk outcome next =>
          cases outcome with
          | none => exact ends reader next called
          | some message =>
              have shrinks := d.decode_shrinks reader message next called
              exact goes reader message next called (ih _ (size ▸ shrinks) next rfl)

/-- No call of a round is made on more symbols than the first one. -/
theorem drain_le (d : Decoder Reader Symbol Message) (reader : Reader) :
    (∀ call ∈ (drain d reader).1, (d.unread call.1).length ≤ (d.unread reader).length) ∧
      (d.unread (drain d reader).2).length ≤ (d.unread reader).length := by
  induction reader using drain_induction d with
  | ends reader next called =>
      have smaller := d.decode_le reader
      rw [called] at smaller
      rw [drain_of_none called]
      exact ⟨by simp, smaller⟩
  | goes reader message next called ih =>
      have smaller := d.decode_le reader
      rw [called] at smaller
      rw [drain_of_some called]
      refine ⟨?_, Nat.le_trans ih.2 smaller⟩
      intro call member
      rcases List.mem_cons.mp member with rfl | later
      · exact Nat.le_refl _
      · exact Nat.le_trans (ih.1 call later) smaller

/-- No call is made on more symbols than the whole stream has. -/
theorem feed_le (d : Decoder Reader Symbol Message) (chunks : List (List Symbol))
    {reader : Reader} {bound : Nat}
    (total : (d.unread reader).length + chunks.flatten.length ≤ bound) :
    ∀ call ∈ (feed d reader chunks).1, (d.unread call.1).length ≤ bound := by
  induction chunks generalizing reader with
  | nil => simp [feed]
  | cons chunk chunks ih =>
      obtain ⟨within, left⟩ := drain_le d (d.append reader chunk)
      rw [d.unread_append, List.length_append] at left within
      rw [List.flatten_cons, List.length_append] at total
      intro call member
      rcases List.mem_append.mp member with now | later
      · exact Nat.le_trans (within call now) (by omega)
      · exact ih (by omega) call later

/-! ## Delimited frames -/

/--
The frame is told apart by the decoder, on the readers satisfying `Ok`: once
it is buffered a call gives its verdict and leaves what follows it, and before
that a call waits.
-/
structure Delimits (d : Decoder Reader Symbol Message) (Ok : Reader → Prop)
    (symbols : Frame → List Symbol) (verdict : Frame → Option Message)
    (frame : Frame) : Prop where
  nonempty : symbols frame ≠ []
  complete : ∀ reader rest, Ok reader → d.unread reader = symbols frame ++ rest →
    (d.decode reader).1 = verdict frame ∧ d.unread (d.decode reader).2 = rest
  incomplete : ∀ reader missing, Ok reader → missing ≠ [] →
    d.unread reader ++ missing = symbols frame →
    (d.decode reader).1 = none ∧ d.unread (d.decode reader).2 = d.unread reader

/-- A call on an empty reader yields nothing and leaves it empty. -/
def Idle (d : Decoder Reader Symbol Message) : Prop :=
  ∀ reader, d.unread reader = [] →
    (d.decode reader).1 = none ∧ d.unread (d.decode reader).2 = []

/-- The next frame, if there is one, is not completely buffered. -/
def Waiting (d : Decoder Reader Symbol Message) (symbols : Frame → List Symbol)
    (reader : Reader) (frames : List Frame) : Prop :=
  ∀ frame later, frames = frame :: later → ¬ symbols frame <+: d.unread reader

section Streams

variable {d : Decoder Reader Symbol Message} {Ok : Reader → Prop}
variable {symbols : Frame → List Symbol} {verdict : Frame → Option Message}

/-- A stream that begins with a frame has been read up to the end of the frame, or less. -/
theorem whole_or_part {read future frame rest : List Symbol}
    (inStep : read ++ future = frame ++ rest) :
    (∃ extra, read = frame ++ extra ∧ extra ++ future = rest) ∨
      ∃ missing, missing ≠ [] ∧ read ++ missing = frame ∧ ¬ frame <+: read := by
  by_cases covered : frame <+: read
  · obtain ⟨extra, rfl⟩ := covered
    rw [List.append_assoc] at inStep
    exact Or.inl ⟨extra, rfl, List.append_cancel_left inStep⟩
  · obtain ⟨missing, whole⟩ | also := List.prefix_or_prefix_of_prefix
      ⟨future, inStep⟩ (List.prefix_append frame rest)
    · refine Or.inr ⟨missing, ?_, whole, covered⟩
      rintro rfl
      rw [List.append_nil] at whole
      exact covered (whole ▸ List.prefix_rfl)
    · exact absurd also covered

/-- One call on a reader in step with the stream: it settles the next frame, or waits. -/
theorem decode_in_step (idle : Idle d) {frames : List Frame}
    (delimited : ∀ frame ∈ frames, Delimits d Ok symbols verdict frame)
    {reader : Reader} {future : List Symbol} (ok : Ok reader)
    (inStep : d.unread reader ++ future = frames.flatMap symbols) :
    (∃ frame later, frames = frame :: later ∧ (d.decode reader).1 = verdict frame ∧
      d.unread (d.decode reader).2 ++ future = later.flatMap symbols) ∨
    ((d.decode reader).1 = none ∧ d.unread (d.decode reader).2 = d.unread reader ∧
      Waiting d symbols reader frames) := by
  cases frames with
  | nil =>
      have empty : d.unread reader = [] := (List.append_eq_nil_iff.mp inStep).1
      obtain ⟨silent, still⟩ := idle reader empty
      refine Or.inr ⟨silent, still.trans empty.symm, ?_⟩
      intro frame later impossible
      cases impossible
  | cons frame later =>
      have laws := delimited frame (List.mem_cons_self ..)
      rw [List.flatMap_cons] at inStep
      rcases whole_or_part inStep with ⟨extra, buffered, rest⟩ | ⟨missing, some_more, whole, part⟩
      · obtain ⟨settled, left⟩ := laws.complete reader extra ok buffered
        exact Or.inl ⟨frame, later, rfl, settled, by rw [left, rest]⟩
      · obtain ⟨silent, still⟩ := laws.incomplete reader missing ok some_more whole
        refine Or.inr ⟨silent, still, ?_⟩
        intro other others same
        cases same
        exact part

/--
One round of calls on a reader in step with the stream: it settles some of
the next frames and yields verdicts of these only, in order.  When no frame is
refused, it yields all of these verdicts and ends waiting for the next frame.
-/
theorem drain_in_step (idle : Idle d) (reader : Reader) {frames : List Frame}
    (delimited : ∀ frame ∈ frames, Delimits d Ok symbols verdict frame)
    {future : List Symbol} (ok : ∀ call ∈ (drain d reader).1, Ok call.1)
    (inStep : d.unread reader ++ future = frames.flatMap symbols) :
    ∃ settled later, frames = settled ++ later ∧
      List.Sublist (decoded (drain d reader).1) (settled.filterMap verdict) ∧
      d.unread (drain d reader).2 ++ future = later.flatMap symbols ∧
      ((∀ frame ∈ frames, (verdict frame).isSome) →
        decoded (drain d reader).1 = settled.filterMap verdict ∧
          Waiting d symbols (drain d reader).2 later) := by
  induction reader using drain_induction d generalizing frames with
  | ends reader next called =>
      rw [drain_of_none called] at ok ⊢
      have first := decode_in_step idle delimited (ok _ (List.mem_cons_self ..)) inStep
      rw [called] at first
      rcases first with ⟨frame, later, whole, silent, rest⟩ | ⟨_, still, waiting⟩
      · refine ⟨[frame], later, whole, by simp [decoded], rest, ?_⟩
        intro accepted
        have yes := accepted frame (by simp [whole])
        rw [← silent] at yes
        cases yes
      · refine ⟨[], frames, rfl, by simp [decoded], by rw [still]; exact inStep, ?_⟩
        intro _
        exact ⟨by simp [decoded], by simpa [Waiting, still] using waiting⟩
  | goes reader message next called ih =>
      rw [drain_of_some called] at ok ⊢
      have first := decode_in_step idle delimited (ok _ (List.mem_cons_self ..)) inStep
      rw [called] at first
      rcases first with ⟨frame, later, rfl, settled, rest⟩ | ⟨silent, _, _⟩
      · obtain ⟨more, remaining, rfl, yields, left, accepting⟩ :=
          ih (fun frame member => delimited frame (List.mem_cons_of_mem _ member))
            (fun call member => ok call (List.mem_cons_of_mem _ member)) rest
        refine ⟨frame :: more, remaining, rfl, ?_, left, ?_⟩
        · simpa [decoded, ← settled] using yields
        · intro accepted
          obtain ⟨all, waiting⟩ :=
            accepting fun frame member => accepted frame (List.mem_cons_of_mem _ member)
          exact ⟨by simpa [decoded, ← settled] using all, waiting⟩
      · cases silent

/-- Whatever the chunks, the calls yield a subsequence of the verdicts of the frames. -/
theorem feed_sublist (idle : Idle d) (chunks : List (List Symbol)) {reader : Reader}
    {frames : List Frame}
    (delimited : ∀ frame ∈ frames, Delimits d Ok symbols verdict frame)
    (ok : ∀ call ∈ (feed d reader chunks).1, Ok call.1)
    (inStep : d.unread reader ++ chunks.flatten = frames.flatMap symbols) :
    List.Sublist (decoded (feed d reader chunks).1) (frames.filterMap verdict) := by
  induction chunks generalizing reader frames with
  | nil => exact List.nil_sublist _
  | cons chunk chunks ih =>
      simp only [feed, List.mem_append] at ok ⊢
      have appended : d.unread (d.append reader chunk) ++ chunks.flatten =
          frames.flatMap symbols := by
        simpa [d.unread_append, List.append_assoc] using inStep
      obtain ⟨settled, later, rfl, yields, left, _⟩ :=
        drain_in_step idle _ delimited (fun call member => ok call (Or.inl member)) appended
      have rest := ih
        (fun frame member => delimited frame (List.mem_append_right _ member))
        (fun call member => ok call (Or.inr member)) left
      rw [decoded_append, List.filterMap_append]
      exact yields.append rest

/--
When no frame is refused, every way of cutting the stream yields exactly the
verdicts of the frames, in order, and uses the whole stream up.
-/
theorem feed_accepting (idle : Idle d) (chunks : List (List Symbol)) {reader : Reader}
    {frames : List Frame}
    (delimited : ∀ frame ∈ frames, Delimits d Ok symbols verdict frame)
    (accepted : ∀ frame ∈ frames, (verdict frame).isSome)
    (ok : ∀ call ∈ (feed d reader chunks).1, Ok call.1)
    (inStep : d.unread reader ++ chunks.flatten = frames.flatMap symbols)
    (waiting : Waiting d symbols reader frames) :
    decoded (feed d reader chunks).1 = frames.filterMap verdict ∧
      d.unread (feed d reader chunks).2 = [] := by
  induction chunks generalizing reader frames with
  | nil =>
      rw [List.flatten_nil, List.append_nil] at inStep
      cases frames with
      | nil => exact ⟨rfl, inStep⟩
      | cons frame later =>
          refine absurd ?_ (waiting frame later rfl)
          rw [inStep, List.flatMap_cons]
          exact List.prefix_append _ _
  | cons chunk chunks ih =>
      simp only [feed, List.mem_append] at ok ⊢
      have appended : d.unread (d.append reader chunk) ++ chunks.flatten =
          frames.flatMap symbols := by
        simpa [d.unread_append, List.append_assoc] using inStep
      obtain ⟨settled, later, rfl, _, left, accepting⟩ :=
        drain_in_step idle _ delimited (fun call member => ok call (Or.inl member)) appended
      obtain ⟨yields, stillWaiting⟩ := accepting accepted
      obtain ⟨rest, empty⟩ := ih
        (fun frame member => delimited frame (List.mem_append_right _ member))
        (fun frame member => accepted frame (List.mem_append_right _ member))
        (fun call member => ok call (Or.inr member)) left stillWaiting
      exact ⟨by rw [decoded_append, List.filterMap_append, yields, rest], empty⟩

end Streams

/-! ## Calling until nothing is used up -/

/-- The symbols that a call has used up. -/
def used (d : Decoder Reader Symbol Message) (before after : Reader) : List Symbol :=
  (d.unread before).take ((d.unread before).length - (d.unread after).length)

/-- Call the decoder until a call yields nothing and uses nothing up; the messages
are listed with the symbols that their calls have used up. -/
def exhaust (d : Decoder Reader Symbol Message) (reader : Reader) :
    List (List Symbol × Message) × Reader :=
  match _called : d.decode reader with
  | (some message, next) =>
      let later := exhaust d next
      ((used d reader next, message) :: later.1, later.2)
  | (none, next) =>
      if (d.unread next).length < (d.unread reader).length then exhaust d next else ([], next)
termination_by (d.unread reader).length
decreasing_by
  · exact d.decode_shrinks reader message next _called
  · assumption

/-- Append the chunks one by one, exhausting the decoder after each. -/
def feedExhaust (d : Decoder Reader Symbol Message) :
    Reader → List (List Symbol) → List (List Symbol × Message) × Reader
  | reader, [] => ([], reader)
  | reader, chunk :: chunks =>
      let exhausted := exhaust d (d.append reader chunk)
      let later := feedExhaust d exhausted.2 chunks
      (exhausted.1 ++ later.1, later.2)

section Exhausting

variable {d : Decoder Reader Symbol Message} {reader next : Reader}

theorem exhaust_of_some {message : Message} (called : d.decode reader = (some message, next)) :
    exhaust d reader =
      ((used d reader next, message) :: (exhaust d next).1, (exhaust d next).2) := by
  rw [exhaust]
  split
  · next found other also =>
      cases also.symm.trans called
      rfl
  · next other also => cases also.symm.trans called

theorem exhaust_of_none (called : d.decode reader = (none, next)) :
    exhaust d reader =
      if (d.unread next).length < (d.unread reader).length then exhaust d next
      else ([], next) := by
  rw [exhaust]
  split
  · next found other also => cases also.symm.trans called
  · next other also =>
      cases also.symm.trans called
      rfl

theorem exhaust_of_skip (called : d.decode reader = (none, next))
    (skipped : (d.unread next).length < (d.unread reader).length) :
    exhaust d reader = exhaust d next := by
  rw [exhaust_of_none called, if_pos skipped]

theorem exhaust_of_wait (called : d.decode reader = (none, next))
    (waits : d.unread next = d.unread reader) : exhaust d reader = ([], next) := by
  rw [exhaust_of_none called, waits, if_neg (Nat.lt_irrefl _)]

/-- A message uses up symbols of the reader only. -/
theorem exhaust_le (d : Decoder Reader Symbol Message) (reader : Reader) :
    (∀ entry ∈ (exhaust d reader).1, entry.1.length ≤ (d.unread reader).length) ∧
      (d.unread (exhaust d reader).2).length ≤ (d.unread reader).length := by
  induction size : (d.unread reader).length using Nat.strongRecOn generalizing reader with
  | _ size ih =>
      have smaller := d.decode_le reader
      cases called : d.decode reader with
      | mk outcome next =>
          rw [called] at smaller
          cases outcome with
          | some message =>
              have shrinks := d.decode_shrinks reader message next called
              obtain ⟨entries, left⟩ := ih _ (size ▸ shrinks) next rfl
              rw [exhaust_of_some called]
              refine ⟨?_, Nat.le_trans left (size ▸ smaller)⟩
              intro entry member
              rcases List.mem_cons.mp member with rfl | later
              · exact size ▸ List.length_take_le' _ _
              · exact Nat.le_trans (entries entry later) (size ▸ smaller)
          | none =>
              by_cases skipped : (d.unread next).length < (d.unread reader).length
              · obtain ⟨entries, left⟩ := ih _ (size ▸ skipped) next rfl
                rw [exhaust_of_skip called skipped]
                exact ⟨fun entry member => Nat.le_trans (entries entry member) (size ▸ smaller),
                  Nat.le_trans left (size ▸ smaller)⟩
              · rw [exhaust_of_none called, if_neg skipped]
                exact ⟨fun _ member => absurd member List.not_mem_nil, size ▸ smaller⟩

theorem feedExhaust_le (d : Decoder Reader Symbol Message) (chunks : List (List Symbol))
    (reader : Reader) :
    ∀ entry ∈ (feedExhaust d reader chunks).1,
      entry.1.length ≤ (d.unread reader).length + chunks.flatten.length := by
  induction chunks generalizing reader with
  | nil => exact fun _ member => absurd member List.not_mem_nil
  | cons chunk chunks ih =>
      obtain ⟨entries, left⟩ := exhaust_le d (d.append reader chunk)
      rw [d.unread_append, List.length_append] at entries left
      rw [List.flatten_cons, List.length_append]
      intro entry member
      rcases List.mem_append.mp member with now | later
      · have bound := entries entry now
        omega
      · have bound := ih _ entry later
        omega

/-- What is fed to an empty reader after the end of the stream changes nothing. -/
theorem feedExhaust_idle (idle : Idle d) {chunks : List (List Symbol)}
    (empty : d.unread reader = []) (ended : chunks.flatten = []) :
    (feedExhaust d reader chunks).1 = [] := by
  induction chunks generalizing reader with
  | nil => rfl
  | cons chunk chunks ih =>
      obtain ⟨noChunk, ended⟩ := List.append_eq_nil_iff.mp ended
      have still : d.unread (d.append reader chunk) = [] := by
        rw [d.unread_append, empty, noChunk, List.append_nil]
      obtain ⟨silent, left⟩ := idle _ still
      have calls := exhaust_of_wait (Prod.ext silent rfl) (left.trans still.symm)
      rw [feedExhaust, calls]
      exact ih left ended

variable {Ok : Reader → Prop} {symbols : Frame → List Symbol} {verdict : Frame → Option Message}
variable {frame : Frame} {message : Message}

/-- Calls on a part of an accepted frame: the frame is yielded once it is complete. -/
theorem exhaust_in_step (idle : Idle d) (delimited : Delimits d Ok symbols verdict frame)
    (accepted : verdict frame = some message) {future : List Symbol} (ok : Ok reader)
    (inStep : d.unread reader ++ future = symbols frame) :
    (future = [] ∧ (exhaust d reader).1 = [(symbols frame, message)] ∧
      d.unread (exhaust d reader).2 = []) ∨
    (future ≠ [] ∧ (exhaust d reader).1 = [] ∧
      d.unread (exhaust d reader).2 = d.unread reader) := by
  by_cases ended : future = []
  · rw [ended, List.append_nil] at inStep
    obtain ⟨settled, left⟩ := delimited.complete reader [] ok (by rw [inStep, List.append_nil])
    have called : d.decode reader = (some message, (d.decode reader).2) :=
      Prod.ext (settled.trans accepted) rfl
    obtain ⟨silent, still⟩ := idle _ left
    have rest := exhaust_of_wait (Prod.ext silent rfl) (still.trans left.symm)
    refine Or.inl ⟨ended, ?_⟩
    rw [exhaust_of_some called, rest, used, left, inStep, List.length_nil, Nat.sub_zero,
      List.take_length]
    exact ⟨rfl, still⟩
  · obtain ⟨silent, left⟩ := delimited.incomplete reader future ok ended inStep
    have calls := exhaust_of_wait (Prod.ext silent rfl) left
    refine Or.inr ⟨ended, ?_⟩
    rw [calls]
    exact ⟨rfl, left⟩

/-- However the rest of an accepted frame is cut, the frame is yielded exactly once. -/
theorem feedExhaust_in_step (idle : Idle d) (delimited : Delimits d Ok symbols verdict frame)
    (accepted : verdict frame = some message)
    (ok : ∀ reader future, d.unread reader ++ future = symbols frame → Ok reader)
    {chunks : List (List Symbol)} (inStep : d.unread reader ++ chunks.flatten = symbols frame)
    (waiting : chunks.flatten ≠ []) :
    (feedExhaust d reader chunks).1 = [(symbols frame, message)] := by
  induction chunks generalizing reader with
  | nil => exact absurd rfl waiting
  | cons chunk chunks ih =>
      have appended : d.unread (d.append reader chunk) ++ chunks.flatten = symbols frame := by
        rw [d.unread_append, List.append_assoc]
        exact inStep
      rw [feedExhaust]
      rcases exhaust_in_step idle delimited accepted (ok _ _ appended) appended with
        ⟨ended, yields, empty⟩ | ⟨more, yields, still⟩
      · rw [yields, feedExhaust_idle idle empty ended, List.append_nil]
      · rw [yields, List.nil_append]
        exact ih (by rw [still]; exact appended) more

end Exhausting

end Framing
