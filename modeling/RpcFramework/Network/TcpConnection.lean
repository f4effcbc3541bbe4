import RpcFramework.Network.Buffer

/-!
# The output side of a connection

`TcpConnection` writes a message to the socket directly when nothing is
buffered, and otherwise through `outputBuffer_` and the write events of its
channel.  What the socket and the kernel answer is an argument of each
operation.  The connection keeps the calls it has made on the socket and the
functors it has queued on its loop.

The output of a connection is what the socket has accepted followed by what is
buffered.  Sending appends to it and write events leave it alone.
-/

namespace RpcFramework

namespace TcpConnection

inductive StateE where
  | disconnected
  | connecting
  | connected
  | disconnecting
  deriving DecidableEq, Repr

/-- The values of `errno` that the connection tells apart. -/
inductive Errno where
  | again
  | pipe
  | connReset
  | other
  deriving DecidableEq, Repr

/-- The errors for which `sendInLoop` gives the connection up. -/
def Errno.isFatal : Errno → Bool
  | .pipe | .connReset => true
  | .again | .other => false

/-- `::write` accepts at most that many of the offered bytes, or fails. -/
inductive WriteResult where
  | accepted (count : Nat)
  | failed (errno : Errno)
  deriving DecidableEq, Repr

/-- A call on the socket, with the bytes that it accepted. -/
inductive SocketCall where
  | write (data : Bytes)
  | shutdownWrite
  deriving DecidableEq, Repr

def SocketCall.data : SocketCall → Bytes
  | .write data => data
  | .shutdownWrite => []

/-- A functor that the connection queues on its loop. -/
inductive LoopFunctor where
  | send (message : Bytes)
  | shutdown
  | writeComplete
  deriving DecidableEq, Repr

end TcpConnection

open TcpConnection

/-- The events that a channel is registered for. -/
structure Channel where
  isReading : Bool
  isWriting : Bool
  deriving DecidableEq, Repr

namespace Channel

def enableWriting (channel : Channel) : Channel := { channel with isWriting := true }

def disableWriting (channel : Channel) : Channel := { channel with isWriting := false }

def disableAll (_ : Channel) : Channel := ⟨false, false⟩

end Channel

structure TcpConnection where
  state : StateE
  channel : Channel
  outputBuffer : Buffer
  writeCompleteCallback : Bool
  socket : List SocketCall
  pendingFunctors : List LoopFunctor
  deriving DecidableEq

namespace TcpConnection

/-- A connection after `connectEstablished`. -/
def established (writeCompleteCallback : Bool) : TcpConnection :=
  ⟨.connected, ⟨true, false⟩, .empty, writeCompleteCallback, [], []⟩

def queueInLoop (conn : TcpConnection) (functor : LoopFunctor) : TcpConnection :=
  { conn with pendingFunctors := conn.pendingFunctors ++ [functor] }

def queueWriteComplete (conn : TcpConnection) : TcpConnection :=
  if conn.writeCompleteCallback then conn.queueInLoop .writeComplete else conn

def handleClose (conn : TcpConnection) : TcpConnection :=
  if conn.state = .disconnected then conn
  else { conn with state := .disconnected, channel := conn.channel.disableAll }

/-- `soError` tells whether `getsockopt` reports an error on the socket. -/
def handleError (conn : TcpConnection) (soError : Bool) : TcpConnection :=
  if soError then conn.handleClose else conn

def shutdownInLoop (conn : TcpConnection) : TcpConnection :=
  if conn.channel.isWriting = false then
    { conn with socket := conn.socket ++ [.shutdownWrite] }
  else conn

/-- The direct write of `sendInLoop`, with `nwrote` and `faultError`. -/
def writeDirectly (conn : TcpConnection) (message : Bytes) (result : WriteResult) :
    TcpConnection × Nat × Bool :=
  if conn.channel.isWriting = false ∧ conn.outputBuffer.readableBytes = 0 then
    match result with
    | .accepted count =>
        let nwrote := min count message.length
        let conn := { conn with socket := conn.socket ++ [.write (message.take nwrote)] }
        (if message.length - nwrote = 0 then conn.queueWriteComplete else conn, nwrote, false)
    | .failed errno => (conn, 0, errno.isFatal)
  else (conn, 0, false)

/-- The rest of the message waits in the buffer for write events. -/
def bufferRest (conn : TcpConnection) (rest : Bytes) : TcpConnection :=
  if rest.length > 0 then
    { conn with
      outputBuffer := conn.outputBuffer.append rest
      channel := if conn.channel.isWriting then conn.channel else conn.channel.enableWriting }
  else conn

def sendInLoop (conn : TcpConnection) (message : Bytes) (result : WriteResult)
    (soError : Bool) : TcpConnection :=
  if conn.state = .disconnected then conn
  else
    let (conn, nwrote, faultError) := conn.writeDirectly message result
    if faultError then conn.handleError soError else conn.bufferRest (message.drop nwrote)

/-- `handleWrite` when the socket has accepted bytes. -/
def wroteBuffered (conn : TcpConnection) (count : Nat) : TcpConnection :=
  let conn := { conn with
    socket := conn.socket ++ [.write (conn.outputBuffer.readable.take count)]
    outputBuffer := conn.outputBuffer.retrieve count }
  if conn.outputBuffer.readableBytes = 0 then
    let conn := { conn with channel := conn.channel.disableWriting }.queueWriteComplete
    if conn.state = .disconnecting then conn.shutdownInLoop else conn
  else conn

def handleWrite (conn : TcpConnection) (result : WriteResult) (soError : Bool) :
    TcpConnection :=
  if conn.channel.isWriting then
    match result with
    | .accepted count =>
        let n := min count conn.outputBuffer.readableBytes
        if n > 0 then conn.wroteBuffered n else conn.handleError soError
    | .failed errno => if errno = .again then conn else conn.handleError soError
  else conn

/-! ## The output -/

/-- The bytes that the socket has accepted. -/
def accepted (calls : List SocketCall) : Bytes := calls.flatMap SocketCall.data

/-- What the socket has accepted and what is buffered. -/
def output (conn : TcpConnection) : Bytes := accepted conn.socket ++ conn.outputBuffer.readable

/-- The channel waits for write events exactly when something is buffered. -/
def Armed (conn : TcpConnection) : Prop :=
  conn.channel.isWriting = true ↔ conn.outputBuffer.readable ≠ []

theorem accepted_append (first second : List SocketCall) :
    accepted (first ++ second) = accepted first ++ accepted second :=
  List.flatMap_append

@[simp]
theorem accepted_write (calls : List SocketCall) (data : Bytes) :
    accepted (calls ++ [.write data]) = accepted calls ++ data := by
  rw [accepted_append]
  simp [accepted, SocketCall.data]

@[simp]
theorem accepted_shutdownWrite (calls : List SocketCall) :
    accepted (calls ++ [.shutdownWrite]) = accepted calls := by
  rw [accepted_append]
  simp [accepted, SocketCall.data]

section Steps

variable {conn next : TcpConnection}

theorem readableBytes_eq_zero (b : Buffer) : b.readableBytes = 0 ↔ b.readable = [] := by
  rw [← b.length_readable, List.length_eq_zero_iff]

/-- The calls on the socket that an operation has made: writes, and at most a
final `shutdownWrite`, made when a closing connection had nothing buffered. -/
inductive SocketCalls (conn next : TcpConnection) : Prop
  | writes (calls : List Bytes) (socket : next.socket = conn.socket ++ calls.map .write)
  | shutdown (calls : List Bytes) (closing : conn.state = .disconnecting)
      (writing : conn.channel.isWriting = true) (drained : next.outputBuffer.readable = [])
      (socket : next.socket = conn.socket ++ calls.map .write ++ [.shutdownWrite])

/-- What an operation does that takes a message over. -/
structure Takes (conn next : TcpConnection) (message : Bytes) : Prop where
  state : next.state = conn.state
  armed : next.Armed
  output : next.output = conn.output ++ message
  functors : ∃ queued, (∀ functor ∈ queued, functor = .writeComplete) ∧
    next.pendingFunctors = conn.pendingFunctors ++ queued
  socket : SocketCalls conn next

theorem Takes.refl (armed : conn.Armed) : conn.Takes conn [] :=
  ⟨rfl, armed, (List.append_nil _).symm, ⟨[], nofun, (List.append_nil _).symm⟩,
    .writes [] (List.append_nil _).symm⟩

theorem queueWriteComplete_keeps (conn : TcpConnection) :
    conn.queueWriteComplete.socket = conn.socket ∧
      conn.queueWriteComplete.outputBuffer = conn.outputBuffer := by
  unfold queueWriteComplete
  split <;> exact ⟨rfl, rfl⟩

/-- Queueing the callback changes nothing but the queue. -/
theorem Takes.queueWriteComplete {message : Bytes} (takes : conn.Takes next message) :
    conn.Takes next.queueWriteComplete message := by
  unfold TcpConnection.queueWriteComplete
  split
  · obtain ⟨queued, callbacks, functors⟩ := takes.functors
    refine ⟨takes.state, takes.armed, takes.output, ⟨queued ++ [.writeComplete], ?_, ?_⟩, ?_⟩
    · intro functor member
      rcases List.mem_append.mp member with earlier | last
      · exact callbacks functor earlier
      · exact List.mem_singleton.mp last
    · rw [← List.append_assoc, ← functors]
      rfl
    · cases takes.socket with
      | writes calls socket => exact .writes calls socket
      | shutdown calls closing writing drained socket =>
          exact .shutdown calls closing writing drained socket
  · exact takes

/-- Buffering a rest that may be empty. -/
theorem Takes.bufferRest {message : Bytes} (takes : conn.Takes next message) (rest : Bytes)
    (writes : ∃ calls : List Bytes, next.socket = conn.socket ++ calls.map .write) :
    conn.Takes (next.bufferRest rest) (message ++ rest) := by
  unfold TcpConnection.bufferRest
  split
  · next some =>
      obtain ⟨calls, socket⟩ := writes
      have after : next.outputBuffer.readable ++ rest ≠ [] := by
        rw [Ne, List.append_eq_nil_iff]
        rintro ⟨_, rfl⟩
        exact Nat.lt_irrefl 0 some
      refine ⟨takes.state, ?_, ?_, takes.functors, .writes calls socket⟩
      · unfold Armed
        dsimp only
        rw [Buffer.readable_append]
        refine iff_of_true ?_ after
        split
        · next writing => exact writing
        · rfl
      · rw [← List.append_assoc, ← takes.output, TcpConnection.output, Buffer.readable_append,
          ← List.append_assoc]
        rfl
  · next none =>
      rw [List.length_eq_zero_iff.mp (Nat.eq_zero_of_not_pos none), List.append_nil]
      exact takes

/-- The socket has taken some bytes. -/
def wrote (conn : TcpConnection) (bytes : Bytes) : TcpConnection :=
  { conn with socket := conn.socket ++ [.write bytes] }

/-- What `sendInLoop` does on an open connection: all of the message waits in the buffer,
the socket takes the front of it at once, or a direct write fails for good. -/
theorem sendInLoop_ways (open_conn : conn.state ≠ .disconnected) (message : Bytes)
    (result : WriteResult) (soError : Bool) :
    conn.sendInLoop message result soError = conn.bufferRest message ∨
      (∃ count direct, conn.outputBuffer.readableBytes = 0 ∧
        (direct = conn.wrote (message.take count) ∨
          direct = (conn.wrote (message.take count)).queueWriteComplete) ∧
        conn.sendInLoop message result soError = direct.bufferRest (message.drop count)) ∨
      (conn.channel.isWriting = false ∧ conn.outputBuffer.readableBytes = 0) ∧
        (∃ errno, result = .failed errno ∧ errno.isFatal = true) ∧
        conn.sendInLoop message result soError = conn.handleError soError := by
  rw [sendInLoop, if_neg open_conn]
  unfold writeDirectly
  by_cases idle : conn.channel.isWriting = false ∧ conn.outputBuffer.readableBytes = 0
  · rw [if_pos idle]
    cases result with
    | accepted count =>
        refine .inr (.inl ⟨min count message.length, _, idle.2, ?_, rfl⟩)
        split
        · exact .inr rfl
        · exact .inl rfl
    | failed errno =>
        dsimp only
        cases fatal : errno.isFatal with
        | false =>
            rw [if_neg Bool.false_ne_true, List.drop_zero]
            exact .inl rfl
        | true =>
            rw [if_pos rfl]
            exact .inr (.inr ⟨idle, ⟨errno, rfl, fatal⟩, rfl⟩)
  · rw [if_neg idle]
    exact .inl rfl

/-- With nothing buffered the socket takes the front of the message. -/
theorem wrote_takes (armed : conn.Armed) (empty : conn.outputBuffer.readableBytes = 0)
    (bytes : Bytes) : conn.Takes (conn.wrote bytes) bytes := by
  refine ⟨rfl, armed, ?_, ⟨[], nofun, (List.append_nil _).symm⟩, .writes [bytes] rfl⟩
  simp only [wrote, output, accepted_write, (readableBytes_eq_zero _).mp empty, List.append_nil]

theorem sendInLoop_takes (armed : conn.Armed) (open_conn : conn.state ≠ .disconnected)
    (message : Bytes) {result : WriteResult}
    (harmless : ∀ errno, result = .failed errno → errno.isFatal = false) (soError : Bool) :
    conn.Takes (conn.sendInLoop message result soError) message := by
  rcases sendInLoop_ways open_conn message result soError with
    buffered | ⟨count, direct, empty, way, written⟩ | ⟨_, ⟨errno, failed, fatal⟩, _⟩
  · rw [buffered]
    exact (Takes.refl armed).bufferRest message ⟨[], (List.append_nil _).symm⟩
  · have front := wrote_takes armed empty (message.take count)
    rw [written]
    conv => rhs; rw [← List.take_append_drop count message]
    rcases way with rfl | rfl
    · exact front.bufferRest _ ⟨[message.take count], rfl⟩
    · exact front.queueWriteComplete.bufferRest _
        ⟨[message.take count], (queueWriteComplete_keeps _).1⟩
  · rw [harmless errno failed] at fatal
    cases fatal

/-- The last buffered bytes of a closing connection are followed by `shutdownWrite`. -/
theorem Takes.shutdownInLoop (takes : conn.Takes next []) (closing : conn.state = .disconnecting)
    (writing : conn.channel.isWriting = true) (drained : next.outputBuffer.readable = [])
    (writes : ∃ calls : List Bytes, next.socket = conn.socket ++ calls.map .write) :
    conn.Takes next.shutdownInLoop [] := by
  have quiet : next.channel.isWriting = false := by
    rw [← Bool.not_eq_true]
    exact fun still => takes.armed.mp still drained
  obtain ⟨calls, socket⟩ := writes
  rw [TcpConnection.shutdownInLoop, if_pos quiet]
  refine ⟨takes.state, takes.armed, ?_, takes.functors,
    .shutdown calls closing writing drained (by rw [socket])⟩
  rw [← takes.output, TcpConnection.output, TcpConnection.output, accepted_shutdownWrite]

theorem wroteBuffered_takes (writing : conn.channel.isWriting = true) (count : Nat) :
    conn.Takes (conn.wroteBuffered count) [] := by
  unfold wroteBuffered
  generalize written : { conn with
    socket := conn.socket ++ [.write (conn.outputBuffer.readable.take count)]
    outputBuffer := conn.outputBuffer.retrieve count : TcpConnection } = next
  have left : next.outputBuffer.readable = conn.outputBuffer.readable.drop count := by
    rw [← written]
    exact conn.outputBuffer.readable_retrieve count
  have socket : next.socket = conn.socket ++
      List.map .write [conn.outputBuffer.readable.take count] := by
    rw [← written]
    rfl
  have kept : next.output = conn.output ++ [] := by
    rw [output, left, socket, List.map_singleton, accepted_write, List.append_assoc,
      List.take_append_drop, List.append_nil]
    rfl
  have functors : ∃ queued, (∀ functor ∈ queued, functor = .writeComplete) ∧
      next.pendingFunctors = conn.pendingFunctors ++ queued := by
    rw [← written]
    exact ⟨[], nofun, (List.append_nil _).symm⟩
  have state : next.state = conn.state := by rw [← written]
  dsimp only
  split
  · next drained =>
      have empty := (readableBytes_eq_zero _).mp drained
      have quiet : conn.Takes { next with channel := next.channel.disableWriting } [] :=
        ⟨state, iff_of_false Bool.false_ne_true (fun differs => differs empty), kept, functors,
          .writes [conn.outputBuffer.readable.take count] socket⟩
      have queued := quiet.queueWriteComplete
      obtain ⟨sameSocket, sameBuffer⟩ :=
        queueWriteComplete_keeps { next with channel := next.channel.disableWriting }
      split
      · next closing =>
          apply queued.shutdownInLoop (queued.state.symm.trans closing) writing
          · rw [sameBuffer]
            exact empty
          · exact ⟨[conn.outputBuffer.readable.take count], sameSocket.trans socket⟩
      · exact queued
  · next more =>
      have stays : next.channel.isWriting = true := by rw [← written]; exact writing
      have nonempty : next.outputBuffer.readable ≠ [] := fun empty =>
        more ((readableBytes_eq_zero _).mpr empty)
      exact ⟨state, iff_of_true stays nonempty, kept, functors,
        .writes [conn.outputBuffer.readable.take count] socket⟩

theorem state_handleClose (conn : TcpConnection) : conn.handleClose.state = .disconnected := by
  unfold handleClose
  split
  · next closed => exact closed
  · rfl

/-- A write event keeps the output, unless it closes the connection. -/
theorem handleWrite_takes (armed : conn.Armed) (result : WriteResult) (soError : Bool) :
    conn.Takes (conn.handleWrite result soError) [] ∨
      soError = true ∧ (conn.handleWrite result soError).state = .disconnected := by
  have failed : conn.Takes (conn.handleError soError) [] ∨
      soError = true ∧ (conn.handleError soError).state = .disconnected := by
    cases soError with
    | false => exact Or.inl (Takes.refl armed)
    | true => exact Or.inr ⟨rfl, conn.state_handleClose⟩
  unfold handleWrite
  split
  · next writing =>
      cases result with
      | accepted count =>
          dsimp only
          split
          · exact Or.inl (wroteBuffered_takes writing _)
          · exact failed
      | failed errno =>
          dsimp only
          split
          · exact Or.inl (Takes.refl armed)
          · exact failed
  · exact Or.inl (Takes.refl armed)

theorem handleWrite_of_closed (closed : conn.state = .disconnected) (result : WriteResult)
    (soError : Bool) : (conn.handleWrite result soError).state = .disconnected := by
  have failed : (conn.handleError soError).state = .disconnected := by
    cases soError with
    | false => exact closed
    | true => exact conn.state_handleClose
  unfold handleWrite
  split
  · next writing =>
      cases result with
      | accepted count =>
          dsimp only
          split
          · exact (wroteBuffered_takes writing _).state.trans closed
          · exact failed
      | failed errno =>
          dsimp only
          split
          · exact closed
          · exact failed
  · exact closed

end Steps

/-! ## Whole runs -/

/-- The operations of the loop thread on the output side. -/
inductive Event where
  | sendInLoop (message : Bytes) (result : WriteResult) (soError : Bool)
  | handleWrite (result : WriteResult) (soError : Bool)
  deriving DecidableEq, Repr

def Event.message : Event → Bytes
  | .sendInLoop message _ _ => message
  | .handleWrite _ _ => []

/-- A direct write does not fail for good. -/
def Event.Harmless : Event → Prop
  | .sendInLoop _ result _ => ∀ errno, result = .failed errno → errno.isFatal = false
  | .handleWrite _ _ => True

def step (conn : TcpConnection) : Event → TcpConnection
  | .sendInLoop message result soError => conn.sendInLoop message result soError
  | .handleWrite result soError => conn.handleWrite result soError

def run (conn : TcpConnection) (events : List Event) : TcpConnection := events.foldl step conn

/-- While it is open, a connection has put out the bytes, and waits for write
events exactly when some of them are buffered. -/
def PutOut (conn : TcpConnection) (sent : Bytes) : Prop :=
  conn.state ≠ .disconnected → conn.output = sent ∧ conn.Armed

theorem PutOut.step {conn : TcpConnection} {sent : Bytes} (putOut : conn.PutOut sent)
    {event : Event} (harmless : event.Harmless) :
    (conn.step event).PutOut (sent ++ event.message) := by
  by_cases closed : conn.state = .disconnected
  · have stays : (conn.step event).state = .disconnected := by
      cases event with
      | sendInLoop message result soError =>
          rw [TcpConnection.step, sendInLoop, if_pos closed]
          exact closed
      | handleWrite result soError => exact handleWrite_of_closed closed result soError
    exact fun open_after => absurd stays open_after
  · obtain ⟨sentBefore, armed⟩ := putOut closed
    intro open_after
    cases event with
    | sendInLoop message result soError =>
        have takes := sendInLoop_takes armed closed message harmless soError
        exact ⟨takes.output.trans (by rw [sentBefore]; rfl), takes.armed⟩
    | handleWrite result soError =>
        rcases handleWrite_takes armed result soError with takes | ⟨_, closes⟩
        · exact ⟨takes.output.trans (by rw [sentBefore]; rfl), takes.armed⟩
        · exact absurd closes open_after

theorem PutOut.run {conn : TcpConnection} {sent : Bytes} (putOut : conn.PutOut sent)
    {events : List Event} (harmless : ∀ event ∈ events, event.Harmless) :
    (conn.run events).PutOut (sent ++ events.flatMap Event.message) := by
  induction events generalizing conn sent with
  | nil =>
      rw [List.flatMap_nil, List.append_nil]
      exact putOut
  | cons event rest ih =>
      have next := putOut.step (harmless event (List.mem_cons_self ..))
      have later := ih next fun other member => harmless other (List.mem_cons_of_mem _ member)
      rw [List.append_assoc, ← List.flatMap_cons] at later
      exact later

/--
However the sends and the write events follow each other and however many bytes
the socket takes each time: until the connection is closed, what the socket has
accepted followed by what is buffered is the concatenation of the messages, and
the channel waits for write events exactly when something is buffered.
-/
theorem output_eq_messages {conn : TcpConnection} (unused : conn.socket = [])
    (empty : conn.outputBuffer.readable = []) (quiet : conn.channel.isWriting = false)
    {events : List Event} (harmless : ∀ event ∈ events, event.Harmless)
    (open_conn : (conn.run events).state ≠ .disconnected) :
    accepted (conn.run events).socket ++ (conn.run events).outputBuffer.readable =
        events.flatMap Event.message ∧
      ((conn.run events).channel.isWriting = true ↔
        (conn.run events).outputBuffer.readable ≠ []) := by
  have start : conn.PutOut [] := by
    intro _
    refine ⟨by rw [output, unused, empty]; rfl, ?_⟩
    rw [Armed, quiet, empty]
    exact iff_of_false Bool.false_ne_true fun differs => differs rfl
  exact start.run harmless open_conn

/-- A direct write that stops half way, a message that is buffered behind the
rest, a write event without progress and one that drains the buffer. -/
def sampleWrites : List Event :=
  [.sendInLoop [1, 2, 3] (.accepted 1) false, .sendInLoop [4, 5] (.failed .again) false,
    .handleWrite (.failed .again) false, .handleWrite (.accepted 3) false]

theorem output_eq_messages_sampleWrites :
    accepted ((established true).run sampleWrites).socket = [1, 2, 3, 4] ∧
      accepted ((established true).run sampleWrites).socket ++
        ((established true).run sampleWrites).outputBuffer.readable = [1, 2, 3, 4, 5] ∧
      (((established true).run sampleWrites).channel.isWriting = true ↔
        ((established true).run sampleWrites).outputBuffer.readable ≠ []) := by
  refine ⟨by decide +kernel, ?_⟩
  apply output_eq_messages rfl rfl rfl
  · simp only [sampleWrites, List.forall_mem_cons, List.not_mem_nil, false_implies, implies_true,
      and_true]
    refine ⟨nofun, ?_, trivial, trivial⟩
    rintro errno ⟨⟩
    rfl
  · decide +kernel

/-! ## Messages that are dropped -/

/-- The socket has taken the front of the message, and the buffer the rest. -/
def Keeps (conn next : TcpConnection) (message : Bytes) : Prop :=
  ∃ taken kept, taken ++ kept = message ∧
    accepted next.socket = accepted conn.socket ++ taken ∧
    next.outputBuffer.readable = conn.outputBuffer.readable ++ kept

/-- A message of at least one byte is written directly, the write fails for good, and
`getsockopt` reports no error. -/
def Swallows (conn : TcpConnection) (message : Bytes) (result : WriteResult) (soError : Bool) :
    Prop :=
  message ≠ [] ∧ conn.channel.isWriting = false ∧ conn.outputBuffer.readableBytes = 0 ∧
    (∃ errno, result = .failed errno ∧ errno.isFatal = true) ∧ soError = false

section Dropping

variable {conn next : TcpConnection} {message : Bytes}

theorem keeps_bufferRest {taken rest : Bytes}
    (socket : accepted next.socket = accepted conn.socket ++ taken)
    (buffer : next.outputBuffer = conn.outputBuffer) :
    conn.Keeps (next.bufferRest rest) (taken ++ rest) := by
  unfold bufferRest
  split
  · refine ⟨taken, rest, rfl, socket, ?_⟩
    rw [← buffer]
    exact next.outputBuffer.readable_append rest
  · next none =>
      have empty := List.length_eq_zero_iff.mp (Nat.eq_zero_of_not_pos none)
      exact ⟨taken, rest, rfl, socket, by rw [empty, buffer, List.append_nil]⟩

theorem not_keeps_self (some_byte : message ≠ [])
    (socket : next.socket = conn.socket) (buffer : next.outputBuffer = conn.outputBuffer) :
    ¬ conn.Keeps next message := by
  rintro ⟨taken, kept, rfl, onSocket, inBuffer⟩
  rw [socket] at onSocket
  rw [buffer] at inBuffer
  exact some_byte (by rw [List.self_eq_append_right.mp onSocket,
    List.self_eq_append_right.mp inBuffer, List.append_nil])

theorem handleError_keeps_output (conn : TcpConnection) (soError : Bool) :
    (conn.handleError soError).socket = conn.socket ∧
      (conn.handleError soError).outputBuffer = conn.outputBuffer := by
  unfold handleError handleClose
  split
  · split
    · exact ⟨rfl, rfl⟩
    · exact ⟨rfl, rfl⟩
  · exact ⟨rfl, rfl⟩

/-- Of an open connection, only a direct write that fails for good can drop a message. -/
theorem sendInLoop_cases (open_conn : conn.state ≠ .disconnected) (message : Bytes)
    (result : WriteResult) (soError : Bool) :
    conn.Keeps (conn.sendInLoop message result soError) message ∨
      (conn.channel.isWriting = false ∧ conn.outputBuffer.readableBytes = 0) ∧
        (∃ errno, result = .failed errno ∧ errno.isFatal = true) ∧
        conn.sendInLoop message result soError = conn.handleError soError := by
  rcases sendInLoop_ways open_conn message result soError with
    buffered | ⟨count, direct, _, way, written⟩ | failed
  · rw [buffered]
    exact .inl (keeps_bufferRest (List.append_nil _).symm rfl)
  · left
    rw [written]
    conv => rhs; rw [← List.take_append_drop count message]
    rcases way with rfl | rfl
    · exact keeps_bufferRest (accepted_write _ _) rfl
    · obtain ⟨socket, buffer⟩ := queueWriteComplete_keeps (conn.wrote (message.take count))
      exact keeps_bufferRest (by rw [socket, wrote, accepted_write]) buffer
  · exact .inr failed

/-- A message that an open connection has dropped leaves it open exactly when it was
swallowed. -/
theorem drop_closes_iff (connected : conn.state = .connected) (message : Bytes)
    (result : WriteResult) (soError : Bool) :
    (¬ conn.Keeps (conn.sendInLoop message result soError) message →
        (conn.sendInLoop message result soError).state = .disconnected) ↔
      ¬ conn.Swallows message result soError := by
  have open_conn : conn.state ≠ .disconnected := by
    rw [connected]
    exact nofun
  constructor
  · rintro closes ⟨some_byte, quiet, empty, ⟨errno, rfl, fatal⟩, rfl⟩
    have unchanged : conn.sendInLoop message (.failed errno) false = conn := by
      rw [sendInLoop, if_neg open_conn, writeDirectly, if_pos ⟨quiet, empty⟩]
      dsimp only
      rw [fatal, if_pos rfl]
      rfl
    rw [unchanged] at closes
    exact open_conn (closes (not_keeps_self some_byte rfl rfl))
  · intro noSwallow dropped
    rcases sendInLoop_cases open_conn message result soError with keeps | ⟨idle, fatal, failed⟩
    · exact absurd keeps dropped
    · obtain ⟨socket, buffer⟩ := conn.handleError_keeps_output soError
      have some_byte : message ≠ [] := by
        rintro rfl
        rw [failed] at dropped
        refine dropped ⟨[], [], rfl, ?_, ?_⟩
        · rw [socket, List.append_nil]
        · rw [buffer, List.append_nil]
      cases soError with
      | false => exact absurd ⟨some_byte, idle.1, idle.2, fatal, rfl⟩ noSwallow
      | true =>
          rw [failed]
          exact conn.state_handleClose

end Dropping

/--
However the sends and the write events follow each other: a message of which a byte
was neither accepted by the socket nor kept in the buffer finds the connection closed
when `sendInLoop` returns, exactly if no write that fails for good is followed by a
`getsockopt` that reports no error.
-/
theorem no_message_dropped_iff (conn : TcpConnection) (events : List Event) :
    (∀ first message result soError rest,
      events = first ++ .sendInLoop message result soError :: rest →
      (conn.run first).state = .connected →
      ¬ (conn.run first).Keeps ((conn.run first).sendInLoop message result soError) message →
      ((conn.run first).sendInLoop message result soError).state = .disconnected) ↔
    ∀ first message result soError rest,
      events = first ++ .sendInLoop message result soError :: rest →
      (conn.run first).state = .connected →
      ¬ (conn.run first).Swallows message result soError := by
  refine forall_congr' fun first => forall_congr' fun message => forall_congr' fun result => ?_
  refine forall_congr' fun soError => forall_congr' fun rest => forall_congr' fun _ => ?_
  exact forall_congr' fun connected => drop_closes_iff connected message result soError

/-- The peer has closed: the write fails with `EPIPE`, no error is left on the socket,
and the message is gone while the connection stays open. -/
theorem message_dropped_on_open_connection :
    ((established false).sendInLoop [1] (.failed .pipe) false).state = .connected ∧
      ¬ (established false).Keeps
        ((established false).sendInLoop [1] (.failed .pipe) false) [1] := by
  refine ⟨by decide +kernel, ?_⟩
  have unchanged :
      (established false).sendInLoop [1] (.failed .pipe) false = established false := by
    decide +kernel
  rw [unchanged]
  exact not_keeps_self (List.cons_ne_nil _ _) rfl rfl

end TcpConnection

end RpcFramework
