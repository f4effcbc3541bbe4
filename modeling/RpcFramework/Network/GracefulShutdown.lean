import RpcFramework.Lib.StepRun
import RpcFramework.Network.TcpConnection

/-!
# Shutting a connection down from another thread

A thread that is not the loop thread sends messages and then calls
`shutdown()`.  A send is queued as a functor, which looks at the state again
when the loop runs it; `shutdown()` changes the state at once.  So the bytes
that are still queued when `shutdown()` is called are never written, and they
are the only ones.
-/

namespace RpcFramework

open StepRun

namespace TcpConnection

/-- The bytes that a queued functor is going to send. -/
def LoopFunctor.bytes : LoopFunctor → Bytes
  | .send message => message
  | .shutdown | .writeComplete => []

/-- `send` on another thread than that of the loop. -/
def send (conn : TcpConnection) (message : Bytes) : TcpConnection :=
  if conn.state = .connected then conn.queueInLoop (.send message) else conn

/-- `shutdown` on another thread than that of the loop. -/
def shutdown (conn : TcpConnection) : TcpConnection :=
  if conn.state = .connected then
    { conn with state := .disconnecting }.queueInLoop .shutdown
  else conn

/-- Run a functor; the write-complete callback belongs to the user. -/
def runFunctor (conn : TcpConnection) (result : WriteResult) (soError : Bool) :
    LoopFunctor → TcpConnection
  | .send message =>
      if conn.state = .connected then conn.sendInLoop message result soError else conn
  | .shutdown => conn.shutdownInLoop
  | .writeComplete => conn

end TcpConnection

open TcpConnection

/--
A connection and the functors that `doPendingFunctors` still has to run.
`sent` holds the bytes given to `send` while the connection was connected, and
`queuedAtShutdown` those of them that were queued when `shutdown()` was called.
-/
structure Session where
  conn : TcpConnection
  functors : List LoopFunctor
  sent : Bytes
  queuedAtShutdown : Bytes

namespace Session

def initial (writeCompleteCallback : Bool) : Session :=
  ⟨.established writeCompleteCallback, [], [], []⟩

/-- The bytes that wait in functors. -/
def queuedBytes (s : Session) : Bytes :=
  (s.functors ++ s.conn.pendingFunctors).flatMap LoopFunctor.bytes

/-- Calls of the sending thread, and steps of the loop thread with the answers of the socket. -/
inductive Event where
  | send (message : Bytes)
  | shutdown
  | doPendingFunctors
  | runFunctor (result : WriteResult) (soError : Bool)
  | handleWrite (result : WriteResult) (soError : Bool)
  deriving DecidableEq, Repr

/-- There are no errors on the socket. -/
def Event.Clean : Event → Prop
  | .runFunctor result soError =>
      soError = false ∧ ∀ errno, result = .failed errno → errno.isFatal = false
  | .handleWrite _ soError => soError = false
  | .send _ | .shutdown | .doPendingFunctors => True

/-- One step.  The loop handles write events and takes the queue over only when
it has run the functors that it took before. -/
def step (s : Session) : Event → Option Session
  | .send message => some { s with
      conn := s.conn.send message
      sent := if s.conn.state = .connected then s.sent ++ message else s.sent }
  | .shutdown => some { s with
      conn := s.conn.shutdown
      queuedAtShutdown :=
        if s.conn.state = .connected then s.queuedAtShutdown ++ s.queuedBytes
        else s.queuedAtShutdown }
  | .doPendingFunctors =>
      if s.functors = [] then
        some { s with
          conn := { s.conn with pendingFunctors := [] }
          functors := s.conn.pendingFunctors }
      else none
  | .runFunctor result soError =>
      match s.functors with
      | functor :: rest =>
          some { s with conn := s.conn.runFunctor result soError functor, functors := rest }
      | [] => none
  | .handleWrite result soError =>
      if s.functors = [] then some { s with conn := s.conn.handleWrite result soError }
      else none

/-- Every byte that was sent had been written when the socket was shut down. -/
def Graceful (s : Session) : Prop :=
  ∀ before after, s.conn.socket = before ++ .shutdownWrite :: after → accepted before = s.sent

/-- `shutdown()` is called when no functor waits with bytes to send. -/
def Drained (s : Session) : Event → Prop
  | .shutdown => s.conn.state = .connected → s.queuedBytes = []
  | _ => True

/-- Everything that is put out was put out before the socket was shut down. -/
def WrittenBeforeShutdown (conn : TcpConnection) : Prop :=
  ∀ before after, conn.socket = before ++ .shutdownWrite :: after → accepted before = conn.output

/-- A connected session has its bytes in the output or in functors; a closing one
has lost those that were in functors when `shutdown()` was called. -/
structure Inv (s : Session) : Prop where
  armed : s.conn.Armed
  connected : s.conn.state = .connected → s.conn.output ++ s.queuedBytes = s.sent ∧
    s.queuedAtShutdown = [] ∧ .shutdownWrite ∉ s.conn.socket ∧
    .shutdown ∉ s.functors ++ s.conn.pendingFunctors
  closing : s.conn.state ≠ .connected → s.conn.state = .disconnecting ∧
    s.conn.output ++ s.queuedAtShutdown = s.sent ∧ WrittenBeforeShutdown s.conn

/-! ## Calls on the socket -/

section Socket

variable {conn next : TcpConnection}

theorem shutdownWrite_not_mem_writes (calls : List Bytes) :
    SocketCall.shutdownWrite ∉ calls.map .write := by
  intro member
  obtain ⟨data, _, impossible⟩ := List.mem_map.mp member
  cases impossible

/-- A `shutdownWrite` in front of writes was there before them. -/
theorem shutdownWrite_before_writes {socket before after : List SocketCall} {calls : List Bytes}
    (split : socket ++ calls.map .write = before ++ .shutdownWrite :: after) :
    ∃ rest, socket = before ++ .shutdownWrite :: rest := by
  rcases List.append_eq_append_iff.mp split with ⟨middle, _, writes⟩ | ⟨rest, socketEq, writes⟩
  · apply absurd _ (shutdownWrite_not_mem_writes calls)
    rw [writes]
    exact List.mem_append_right _ (List.mem_cons_self ..)
  · cases rest with
    | nil =>
        apply absurd _ (shutdownWrite_not_mem_writes calls)
        rw [← List.nil_append (calls.map _), ← writes]
        exact List.mem_cons_self ..
    | cons call rest =>
        cases (List.cons.inj writes).1
        exact ⟨rest, socketEq⟩

theorem shutdownWrite_at_end {socket before after : List SocketCall}
    (split : socket ++ [.shutdownWrite] = before ++ .shutdownWrite :: after) :
    before = socket ∨ ∃ rest, socket = before ++ .shutdownWrite :: rest := by
  rcases List.append_eq_append_iff.mp split with ⟨middle, beforeEq, last⟩ | ⟨rest, socketEq, last⟩
  · cases middle with
    | nil => exact Or.inl (by rw [beforeEq, List.append_nil])
    | cons call middle => cases middle <;> cases last
  · cases rest with
    | nil => exact Or.inl (by rw [socketEq, List.append_nil])
    | cons call rest =>
        cases (List.cons.inj last).1
        exact Or.inr ⟨rest, socketEq⟩

/-- Output that stays the same stays written before the shutdown. -/
theorem WrittenBeforeShutdown.takes (written : WrittenBeforeShutdown conn)
    (takes : conn.Takes next []) : WrittenBeforeShutdown next := by
  have same : next.output = conn.output := by rw [takes.output, List.append_nil]
  intro before after split
  rw [same]
  cases takes.socket with
  | writes calls socket =>
      rw [socket] at split
      obtain ⟨rest, socketBefore⟩ := shutdownWrite_before_writes split
      exact written before rest socketBefore
  | shutdown calls closing writing drained socket =>
      rw [socket] at split
      rcases shutdownWrite_at_end split with whole | ⟨rest, earlier⟩
      · rw [← same, output, drained, List.append_nil, socket, accepted_shutdownWrite, whole]
      · obtain ⟨rest, socketBefore⟩ := shutdownWrite_before_writes earlier
        exact written before rest socketBefore

theorem shutdownInLoop_keeps (armed : conn.Armed) :
    conn.shutdownInLoop.Armed ∧ conn.shutdownInLoop.state = conn.state ∧
      conn.shutdownInLoop.output = conn.output := by
  unfold shutdownInLoop
  split
  · refine ⟨armed, rfl, ?_⟩
    rw [output, accepted_shutdownWrite]
    rfl
  · exact ⟨armed, rfl, rfl⟩

theorem WrittenBeforeShutdown.shutdownInLoop (written : WrittenBeforeShutdown conn)
    (armed : conn.Armed) : WrittenBeforeShutdown conn.shutdownInLoop := by
  unfold TcpConnection.shutdownInLoop
  split
  · next quiet =>
      have empty : conn.outputBuffer.readable = [] := by
        by_contra nonempty
        exact Bool.false_ne_true (quiet.symm.trans (armed.mpr nonempty))
      intro before after split
      rw [output, accepted_shutdownWrite]
      rcases shutdownWrite_at_end split with whole | ⟨rest, earlier⟩
      · rw [whole, empty, List.append_nil]
      · exact written before rest earlier
  · exact written

end Socket

/-! ## Steps -/

section Steps

variable {s : Session}

theorem inv_initial (writeCompleteCallback : Bool) : (initial writeCompleteCallback).Inv where
  armed := iff_of_false Bool.false_ne_true fun differs => differs rfl
  connected _ := ⟨rfl, rfl, nofun, nofun⟩
  closing unconnected := absurd rfl unconnected

/-- A connected session whose connection takes a message over from a functor. -/
theorem Inv.takes (inv : s.Inv) (connected : s.conn.state = .connected) {next : TcpConnection}
    {message : Bytes} (takes : s.conn.Takes next message) {functors : List LoopFunctor}
    (bytes : s.functors.flatMap LoopFunctor.bytes =
      message ++ functors.flatMap LoopFunctor.bytes) (fewer : functors ⊆ s.functors) :
    Inv { s with conn := next, functors := functors } := by
  obtain ⟨sent, none, unshut, unasked⟩ := inv.connected connected
  obtain ⟨queued, callbacks, pending⟩ := takes.functors
  refine ⟨takes.armed, fun _ => ⟨?_, none, ?_, ?_⟩, ?_⟩
  · have silent : queued.flatMap LoopFunctor.bytes = [] := by
      rw [List.flatMap_eq_nil_iff]
      intro functor member
      rw [callbacks functor member]
      rfl
    rw [← sent, takes.output]
    simp only [queuedBytes, pending, List.flatMap_append, silent, bytes, List.append_nil,
      List.append_assoc]
  · cases takes.socket with
    | writes calls socket =>
        rw [socket, List.mem_append]
        exact not_or.mpr ⟨unshut, shutdownWrite_not_mem_writes calls⟩
    | shutdown calls closing writing drained socket =>
        rw [connected] at closing
        cases closing
  · rw [pending, ← List.append_assoc, List.mem_append]
    rintro (earlier | new)
    · apply unasked
      rcases List.mem_append.mp earlier with running | waiting
      · exact List.mem_append_left _ (fewer running)
      · exact List.mem_append_right _ waiting
    · cases callbacks _ new
  · intro unconnected
    exact absurd (takes.state.trans connected) unconnected

/-- A closing session whose connection keeps its output. -/
theorem Inv.keeps (inv : s.Inv) (unconnected : s.conn.state ≠ .connected) {next : TcpConnection}
    (armed : next.Armed) (state : next.state = s.conn.state) (output : next.output = s.conn.output)
    (written : WrittenBeforeShutdown next) (functors : List LoopFunctor) :
    Inv { s with conn := next, functors := functors } := by
  obtain ⟨closing, sent, _⟩ := inv.closing unconnected
  refine ⟨armed, ?_, fun _ => ⟨state.trans closing, ?_, written⟩⟩
  · intro connected
    exact absurd (state.symm.trans connected) unconnected
  · dsimp only
    rw [output, sent]

theorem Inv.send (inv : s.Inv) {next : Session} {message : Bytes}
    (taken : s.step (.send message) = some next) : next.Inv := by
  cases taken
  unfold TcpConnection.send
  by_cases connected : s.conn.state = .connected
  · rw [if_pos connected, if_pos connected]
    obtain ⟨sent, none, unshut, unasked⟩ := inv.connected connected
    refine ⟨inv.armed, fun _ => ⟨?_, none, unshut, ?_⟩, fun unconnected =>
      absurd connected unconnected⟩
    · rw [← sent]
      simp [queuedBytes, queueInLoop, LoopFunctor.bytes, output]
    · simpa [queueInLoop] using unasked
  · rw [if_neg connected, if_neg connected]
    exact inv

theorem Inv.shutdown (inv : s.Inv) {next : Session}
    (taken : s.step .shutdown = some next) : next.Inv := by
  cases taken
  unfold TcpConnection.shutdown
  by_cases connected : s.conn.state = .connected
  · rw [if_pos connected, if_pos connected]
    obtain ⟨sent, none, unshut, _⟩ := inv.connected connected
    refine ⟨inv.armed, nofun, fun _ => ⟨rfl, ?_, ?_⟩⟩
    · rw [none, List.nil_append]
      exact sent
    · intro before after split
      apply absurd _ unshut
      rw [show s.conn.socket = before ++ .shutdownWrite :: after from split]
      exact List.mem_append_right _ (List.mem_cons_self ..)
  · rw [if_neg connected, if_neg connected]
    exact inv

theorem Inv.doPendingFunctors (inv : s.Inv) {next : Session}
    (taken : s.step .doPendingFunctors = some next) : next.Inv := by
  rw [step] at taken
  split at taken
  · next none =>
      cases taken
      have queue : s.functors ++ s.conn.pendingFunctors =
          s.conn.pendingFunctors ++ [] := by rw [none, List.nil_append, List.append_nil]
      refine ⟨inv.armed, ?_, inv.closing⟩
      have connected := inv.connected
      rw [queuedBytes, queue] at connected
      exact connected
  · cases taken

theorem Inv.runFunctor (inv : s.Inv) {next : Session} {result : WriteResult} {soError : Bool}
    (taken : s.step (.runFunctor result soError) = some next)
    (harmless : ∀ errno, result = .failed errno → errno.isFatal = false) : next.Inv := by
  rw [step] at taken
  split at taken
  · next functor rest functors =>
      cases taken
      have fewer : rest ⊆ s.functors := by
        rw [functors]
        exact List.subset_cons_self ..
      have bytes : s.functors.flatMap LoopFunctor.bytes =
          functor.bytes ++ rest.flatMap LoopFunctor.bytes := by rw [functors, List.flatMap_cons]
      by_cases connected : s.conn.state = .connected
      · cases functor with
        | send message =>
            rw [TcpConnection.runFunctor, if_pos connected]
            exact inv.takes connected
              (sendInLoop_takes inv.armed (by simp [connected]) message harmless soError) bytes fewer
        | shutdown =>
            apply absurd _ (inv.connected connected).2.2.2
            rw [functors]
            exact List.mem_append_left _ (List.mem_cons_self ..)
        | writeComplete => exact inv.takes connected (Takes.refl inv.armed) bytes fewer
      · have written := (inv.closing connected).2.2
        cases functor with
        | send message =>
            rw [TcpConnection.runFunctor, if_neg connected]
            exact inv.keeps connected inv.armed rfl rfl written rest
        | shutdown =>
            obtain ⟨armed, state, output⟩ := shutdownInLoop_keeps inv.armed
            exact inv.keeps connected armed state output (written.shutdownInLoop inv.armed) rest
        | writeComplete => exact inv.keeps connected inv.armed rfl rfl written rest
  · cases taken

theorem Inv.handleWrite (inv : s.Inv) {next : Session} {result : WriteResult}
    (taken : s.step (.handleWrite result false) = some next) : next.Inv := by
  rw [step] at taken
  split at taken
  · cases taken
    rcases handleWrite_takes inv.armed result false with takes | ⟨impossible, _⟩
    · by_cases connected : s.conn.state = .connected
      · exact inv.takes connected takes rfl (List.Subset.refl _)
      · have written := (inv.closing connected).2.2
        exact inv.keeps connected takes.armed takes.state
          (takes.output.trans (List.append_nil _)) (written.takes takes) s.functors
    · cases impossible
  · cases taken

theorem Inv.step (inv : s.Inv) {event : Event} (clean : event.Clean) {next : Session}
    (taken : s.step event = some next) : next.Inv := by
  cases event with
  | send message => exact inv.send taken
  | shutdown => exact inv.shutdown taken
  | doPendingFunctors => exact inv.doPendingFunctors taken
  | runFunctor result soError => exact inv.runFunctor taken clean.2
  | handleWrite result soError =>
      cases clean
      exact inv.handleWrite taken

/-- Bytes are queued at a shutdown exactly if one was called with bytes in functors. -/
theorem queuedAtShutdown_step {event : Event} {next : Session} (taken : s.step event = some next) :
    next.queuedAtShutdown = [] ↔ s.queuedAtShutdown = [] ∧ s.Drained event := by
  cases event with
  | shutdown =>
      cases taken
      dsimp only [Drained]
      by_cases connected : s.conn.state = .connected
      · rw [if_pos connected, List.append_eq_nil_iff]
        exact and_congr_right fun _ => ⟨fun drained _ => drained, fun drained => drained connected⟩
      · rw [if_neg connected]
        exact (and_iff_left fun still => absurd still connected).symm
  | send message =>
      cases taken
      exact (and_iff_left trivial).symm
  | doPendingFunctors =>
      rw [Session.step] at taken
      split at taken <;> cases taken
      exact (and_iff_left trivial).symm
  | runFunctor result soError =>
      rw [Session.step] at taken
      split at taken <;> cases taken
      exact (and_iff_left trivial).symm
  | handleWrite result soError =>
      rw [Session.step] at taken
      split at taken <;> cases taken
      exact (and_iff_left trivial).symm

/-- When the socket has been shut down, exactly the bytes queued at the shutdown are missing. -/
theorem Inv.graceful_iff (inv : s.Inv) :
    s.Graceful ↔ .shutdownWrite ∉ s.conn.socket ∨ s.queuedAtShutdown = [] := by
  by_cases connected : s.conn.state = .connected
  · obtain ⟨_, none, unshut, _⟩ := inv.connected connected
    refine iff_of_true ?_ (Or.inl unshut)
    intro before after split
    apply absurd _ unshut
    rw [split]
    exact List.mem_append_right _ (List.mem_cons_self ..)
  · obtain ⟨_, sent, written⟩ := inv.closing connected
    constructor
    · intro graceful
      by_cases shut : SocketCall.shutdownWrite ∈ s.conn.socket
      · obtain ⟨before, after, split⟩ := List.append_of_mem shut
        refine Or.inr ?_
        rw [← graceful before after split, ← written before after split] at sent
        exact List.append_right_eq_self.mp sent
      · exact Or.inl shut
    · rintro (unshut | none) before after split
      · apply absurd _ unshut
        rw [split]
        exact List.mem_append_right _ (List.mem_cons_self ..)
      · rw [written before after split, ← sent, none, List.append_nil]

end Steps

/--
In every schedule without socket errors, all bytes that were sent are written
before the socket is shut down exactly if `shutdown()` was called when no
functor was waiting with bytes to send (or the socket has not been shut down yet).
-/
theorem graceful_iff_drained {writeCompleteCallback : Bool} {events : List Event}
    {final : Session} (clean : ∀ event ∈ events, event.Clean)
    (reached : run? step (initial writeCompleteCallback) events = some final) :
    final.Graceful ↔ .shutdownWrite ∉ final.conn.socket ∨
      Along step Drained (initial writeCompleteCallback) events := by
  have kept : ∀ (s : Session) event next, s.Inv → event.Clean → s.step event = some next →
      next.Inv := fun _ _ _ inv clean taken => inv.step clean taken
  have inv : final.Inv :=
    run?_invariant_along kept (inv_initial writeCompleteCallback) (.of_forall clean _) reached
  have exact_step : ∀ (s : Session) event next, True → s.step event = some next →
      (next.queuedAtShutdown = [] ↔ s.queuedAtShutdown = [] ∧ s.Drained event) :=
    fun _ _ _ _ taken => queuedAtShutdown_step taken
  have run : final.queuedAtShutdown = [] ↔ (initial writeCompleteCallback).queuedAtShutdown = [] ∧
      Along step Drained (initial writeCompleteCallback) events :=
    run?_exact_along (fun _ _ _ _ _ => trivial) exact_step trivial reached
  rw [inv.graceful_iff, run]
  exact or_congr_right (and_iff_right rfl)

/-- A message that the loop has begun to write when the connection is shut down. -/
def drainedShutdown : List Event :=
  [.send [1, 2, 3], .doPendingFunctors, .runFunctor (.accepted 1) false, .shutdown,
    .handleWrite (.accepted 2) false]

theorem graceful_iff_drained_drainedShutdown :
    ∃ final, run? step (initial false) drainedShutdown = some final ∧
      final.conn.socket = [.write [1], .write [2, 3], .shutdownWrite] ∧ final.Graceful := by
  obtain ⟨final, reached, socket⟩ : ∃ final, run? step (initial false) drainedShutdown = some final ∧
      final.conn.socket = [.write [1], .write [2, 3], .shutdownWrite] :=
    ⟨_, rfl, by decide +kernel⟩
  refine ⟨final, reached, socket, (graceful_iff_drained ?_ reached).mpr (Or.inr ?_)⟩
  · simp only [drainedShutdown, List.forall_mem_cons, List.not_mem_nil, false_implies,
      implies_true, and_true]
    exact ⟨trivial, trivial, ⟨rfl, nofun⟩, trivial, rfl⟩
  · exact .cons trivial rfl (.cons trivial rfl (.cons trivial rfl (.cons (fun _ => rfl) rfl
      (.cons trivial rfl trivial))))

/-- A message that is still in its functor when the connection is shut down is
never written. -/
theorem shutdown_drops_queued_message :
    ∃ final, run? step (initial false) [.send [1, 2, 3], .shutdown, .doPendingFunctors,
        .runFunctor (.accepted 3) false, .runFunctor (.accepted 0) false] = some final ∧
      final.sent = [1, 2, 3] ∧ final.conn.socket = [.shutdownWrite] ∧ ¬ final.Graceful := by
  refine ⟨_, rfl, rfl, rfl, ?_⟩
  intro graceful
  have written := graceful [] [] rfl
  cases written

end Session

end RpcFramework
