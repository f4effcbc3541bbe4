import RpcFramework.Lib.Framing

/-!
# Frames on a link

The symbols of frames travel on a link and are read in portions of any size.
A portion is appended to what the reader has not used yet, and the decoder is
called until a call yields nothing.  What a frame is decoded to may depend on
earlier calls, so a frame is related to the messages that show it.

At any time the frames that have not been decoded are, symbol by symbol, what
the reader holds and what is still on the way; a portion takes a first part of
them off, in their order.
-/

namespace Framing

variable {Reader Symbol Message Frame : Type}

/--
The frame is told apart by the decoder, on the readers satisfying `Ok`: once it
is buffered a call yields a message that shows it and leaves what follows it,
and before that a call waits.
-/
structure Presents (d : Decoder Reader Symbol Message) (Ok : Reader → Prop)
    (symbols : Frame → List Symbol) (Shows : Frame → Message → Prop) (frame : Frame) : Prop where
  complete : ∀ reader rest, Ok reader → d.unread reader = symbols frame ++ rest →
    ∃ message, (d.decode reader).1 = some message ∧ Shows frame message ∧
      d.unread (d.decode reader).2 = rest
  incomplete : ∀ reader missing, Ok reader → missing ≠ [] →
    d.unread reader ++ missing = symbols frame →
    (d.decode reader).1 = none ∧ d.unread (d.decode reader).2 = d.unread reader

/-- The frames that have not been decoded are what is buffered and what is on the
way, and the first of them is not completely buffered. -/
structure Carries (symbols : Frame → List Symbol) (buffered inFlight : List Symbol)
    (frames : List Frame) : Prop where
  inStep : buffered ++ inFlight = frames.flatMap symbols
  waiting : ∀ frame later, frames = frame :: later → ¬ symbols frame <+: buffered

section Link

variable {symbols : Frame → List Symbol} {buffered inFlight : List Symbol} {frames : List Frame}

theorem Carries.nothing : Carries symbols [] [] ([] : List Frame) := by
  refine ⟨rfl, ?_⟩
  intro frame later impossible
  cases impossible

theorem Carries.send (carries : Carries symbols buffered inFlight frames) {frame : Frame}
    (nonempty : symbols frame ≠ []) :
    Carries symbols buffered (inFlight ++ symbols frame) (frames ++ [frame]) := by
  constructor
  · rw [← List.append_assoc, carries.inStep, List.flatMap_append, List.flatMap_singleton]
  · intro first later split
    cases frames with
    | nil =>
        have empty : buffered = [] := (List.append_eq_nil_iff.mp carries.inStep).1
        cases split
        intro covered
        rw [empty] at covered
        exact nonempty (List.prefix_nil.mp covered)
    | cons other others =>
        cases split
        exact carries.waiting first others rfl

/-- When nothing is on the way, every frame has been decoded. -/
theorem Carries.drained (carries : Carries symbols buffered [] frames) : frames = [] := by
  cases frames with
  | nil => rfl
  | cons frame later =>
      have whole := carries.inStep
      rw [List.append_nil, List.flatMap_cons] at whole
      exact absurd (whole ▸ List.prefix_append _ _) (carries.waiting frame later rfl)

/-- What is buffered is a part of one frame. -/
theorem Carries.length_buffered_le (carries : Carries symbols buffered inFlight frames)
    {bound : Nat} (small : ∀ frame ∈ frames, (symbols frame).length ≤ bound) :
    buffered.length ≤ bound := by
  cases frames with
  | nil =>
      have empty : buffered = [] := (List.append_eq_nil_iff.mp carries.inStep).1
      rw [empty]
      exact Nat.zero_le bound
  | cons frame later =>
      have whole := carries.inStep
      rw [List.flatMap_cons] at whole
      rcases whole_or_part whole with ⟨extra, rfl, _⟩ | ⟨missing, _, first, _⟩
      · exact absurd (List.prefix_append _ _) (carries.waiting frame later rfl)
      · have part : buffered <+: symbols frame := ⟨missing, first⟩
        exact Nat.le_trans part.length_le (small frame (List.mem_cons_self ..))

end Link

section Delivery

variable {d : Decoder Reader Symbol Message} {Ok : Reader → Prop}
variable {symbols : Frame → List Symbol} {Shows : Frame → Message → Prop}

/-- One call on a reader in step with the frames: it shows the next frame, or waits. -/
theorem decode_presented (idle : Idle d) {frames : List Frame}
    (presented : ∀ frame ∈ frames, Presents d Ok symbols Shows frame)
    {reader : Reader} {future : List Symbol} (ok : Ok reader)
    (inStep : d.unread reader ++ future = frames.flatMap symbols) :
    (∃ frame later message, frames = frame :: later ∧ (d.decode reader).1 = some message ∧
      Shows frame message ∧ d.unread (d.decode reader).2 ++ future = later.flatMap symbols) ∨
    ((d.decode reader).1 = none ∧
      Carries symbols (d.unread (d.decode reader).2) future frames) := by
  cases frames with
  | nil =>
      obtain ⟨empty, ended⟩ := List.append_eq_nil_iff.mp inStep
      obtain ⟨silent, still⟩ := idle reader empty
      rw [still, ended]
      exact Or.inr ⟨silent, Carries.nothing⟩
  | cons frame later =>
      have laws := presented frame (List.mem_cons_self ..)
      rw [List.flatMap_cons] at inStep
      rcases whole_or_part inStep with ⟨extra, buffered, rest⟩ | ⟨missing, some_more, whole, part⟩
      · obtain ⟨message, settled, shown, left⟩ := laws.complete reader extra ok buffered
        exact Or.inl ⟨frame, later, message, rfl, settled, shown, by rw [left, rest]⟩
      · obtain ⟨silent, still⟩ := laws.incomplete reader missing ok some_more whole
        refine Or.inr ⟨silent, ?_, ?_⟩
        · rw [still, List.flatMap_cons]
          exact inStep
        · intro other others same
          cases same
          rw [still]
          exact part

/-- A round of calls shows a first part of the frames, in order, and waits for the next one. -/
theorem drain_presented (idle : Idle d) (reader : Reader) {frames : List Frame}
    (presented : ∀ frame ∈ frames, Presents d Ok symbols Shows frame) {future : List Symbol}
    (ok : ∀ call ∈ (drain d reader).1, Ok call.1)
    (inStep : d.unread reader ++ future = frames.flatMap symbols) :
    ∃ settled later, frames = settled ++ later ∧
      List.Forall₂ Shows settled (decoded (drain d reader).1) ∧
      Carries symbols (d.unread (drain d reader).2) future later := by
  induction reader using drain_induction d generalizing frames with
  | ends reader next called =>
      rw [drain_of_none called] at ok ⊢
      have first := decode_presented idle presented (ok _ (List.mem_cons_self ..)) inStep
      rw [called] at first
      rcases first with ⟨_, _, _, _, impossible, _⟩ | ⟨_, carries⟩
      · cases impossible
      · exact ⟨[], frames, rfl, .nil, carries⟩
  | goes reader message next called ih =>
      rw [drain_of_some called] at ok ⊢
      have first := decode_presented idle presented (ok _ (List.mem_cons_self ..)) inStep
      rw [called] at first
      rcases first with ⟨frame, later, also, rfl, same, shown, rest⟩ | ⟨impossible, _⟩
      · cases same
        obtain ⟨settled, remaining, rfl, shows, carries⟩ :=
          ih (fun frame member => presented frame (List.mem_cons_of_mem _ member))
            (fun call member => ok call (List.mem_cons_of_mem _ member)) rest
        exact ⟨frame :: settled, remaining, rfl, .cons shown shows, carries⟩
      · cases impossible

/-- A portion that is read takes a first part of the frames off the link. -/
theorem Carries.deliver (idle : Idle d) {bound : Nat} {buffered inFlight : List Symbol}
    {frames : List Frame} (carries : Carries symbols buffered inFlight frames)
    (presented : ∀ frame ∈ frames,
      Presents d (fun reader => (d.unread reader).length ≤ bound) symbols Shows frame)
    {reader : Reader} {count : Nat} (read : d.unread reader = buffered ++ inFlight.take count)
    (room : (d.unread reader).length ≤ bound) :
    ∃ settled later, frames = settled ++ later ∧
      List.Forall₂ Shows settled (decoded (drain d reader).1) ∧
      Carries symbols (d.unread (drain d reader).2) (inFlight.drop count) later := by
  apply drain_presented idle reader presented
  · intro call member
    exact Nat.le_trans ((drain_le d reader).1 call member) room
  · rw [read, List.append_assoc, List.take_append_drop]
    exact carries.inStep

end Delivery

end Framing
