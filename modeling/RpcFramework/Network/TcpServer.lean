import Mathlib.Data.Char
import Mathlib.Data.List.Lex
import RpcFramework.Lib.SortedMap
import RpcFramework.Lib.Workers
import RpcFramework.Network.Poller

/-!
# The server and its loops

A server accepts connections on its base loop and gives each of them to a loop of
its thread pool, or keeps it on the base loop if the pool has no threads.  It
holds the connections in a table under their names.  A connection that closes
asks the base loop to take it out of the table, and the base loop asks the loop
of the connection to destroy it.

Every loop is a thread with the functors that are queued on it.  The steps of the
threads interleave in any order: a step is a function of a connection up to the
callback that it invokes.  What the system answers to a call on a socket is an
argument of the step.

The events of one `epoll_wait` are handled one after another, also that of a channel
that an earlier one has closed.  A callback of the user may throw.  The exception skips
the rest of the functions that have called it, up to another callback of the user or
to the loop, which goes on with the next event, timer or functor.
-/

namespace RpcFramework

open TcpConnection

/-- The base loop and the loops of the threads of the pool. -/
inductive ServerLoop where
  | base
  | io (i : Nat)
  deriving DecidableEq, Repr

/-- The pool after `start`: the number of its loops and the index of the next one. -/
structure EventLoopThreadPool where
  loops : Nat
  next : Nat
  deriving DecidableEq, Repr

namespace EventLoopThreadPool

def start (numThreads : Int) : EventLoopThreadPool := ⟨numThreads.toNat, 0⟩

def getNextLoop (pool : EventLoopThreadPool) : ServerLoop × EventLoopThreadPool :=
  if pool.loops = 0 then (.base, pool)
  else
    let next := pool.next + 1
    (.io pool.next, { pool with next := if next ≥ pool.loops then 0 else next })

end EventLoopThreadPool

abbrev ConnId := Nat

/-- The functions of a connection that make up its life, as they have run. -/
inductive LifeCall where
  | established
  | closed
  | destroyed
  deriving DecidableEq, Repr

/-- What a loop has to do: a functor that was queued on it, an event that `epoll_wait` has
returned, a callback of a channel, the rest of a function behind a callback, the round of
the idle check at a name, or a callback of the user that runs. -/
inductive LoopTask where
  | connectEstablished (c : ConnId)
  | handleEvent (c : ConnId) (revents : Revents)
  | handleClose (c : ConnId)
  | sendInLoop (c : ConnId)
  | shutdownInLoop (c : ConnId)
  | writeComplete (c : ConnId)
  | handler (c : ConnId) (callback : Channel.Callback)
  | closeCallback (c : ConnId)
  | removeConnectionInLoop (c : ConnId)
  | connectDestroyed (c : ConnId)
  | removeChannel (c : ConnId)
  | checkIdleTimeout (name : List Char)
  | nextIdle (name : List Char)
  | running
  deriving DecidableEq, Repr

/-- An exception ends at a callback of the user that has called in, or at the loop before
the next event. -/
def LoopTask.catches : LoopTask → Bool
  | .running | .handleEvent _ _ => true
  | _ => false

structure ServerConnection where
  loop : ServerLoop
  state : StateE
  channel : PolledChannel
  lastActiveTimeMs : Int
  calls : List LifeCall
  deriving DecidableEq, Repr

/-- What a call on a socket comes to: nothing more is done, a callback of the user is
called, the rest of a message is left to a write event, everything is written, or the
connection is closed. -/
inductive SocketOutcome where
  | done
  | callback
  | rest
  | written
  | close
  deriving DecidableEq, Repr

structure TcpServer where
  name : List Char
  threadPool : EventLoopThreadPool
  connectionCallback : Bool
  idleTimeoutSeconds : Int
  nextConnId : Nat
  connections : SortedMap (List Char) ConnId
  conns : ConnId → ServerConnection
  work : Workers ServerLoop LoopTask
  /-- Calls of `shutdown` from other threads that have found the connection connected. -/
  shutdowns : List ConnId
  aborted : Bool
  iteratorLost : Bool

namespace TcpServer

inductive Event where
  | accept (sockfd : Nat) (nowMs : Int)
  | epollWait (loop : ServerLoop) (active : List (ConnId × Revents))
  | start (loop : ServerLoop)
  | proceed (loop : ServerLoop) (nowMs : Int) (outcome : SocketOutcome)
  | callbackReturns (loop : ServerLoop)
  | callbackThrows (loop : ServerLoop)
  | send (current : Option ServerLoop) (c : ConnId) (outcome : SocketOutcome)
  | shutdown (c : ConnId)
  | shutdownReads (c : ConnId)
  | shutdownStores (c : ConnId)
  | forceClose (current : Option ServerLoop) (c : ConnId)
  | checkIdle
  deriving DecidableEq, Repr

/-- The server after `start`.  The counter of the connections is an `int`; a run ends
before it overflows. -/
def started (name : List Char) (numThreads : Int) (connectionCallback : Bool)
    (idleTimeoutSeconds : Int) : TcpServer where
  name := name
  threadPool := .start numThreads
  connectionCallback := connectionCallback
  idleTimeoutSeconds := idleTimeoutSeconds
  nextConnId := 1
  connections := .empty
  conns _ := ⟨.base, .connecting, ⟨0, ⟨false, false⟩, .unregistered⟩, 0, []⟩
  work _ := .idle
  shutdowns := []
  aborted := false
  iteratorLost := false

/-- The name of a connection; the part behind the name of the server is cut to the size
of its buffer. -/
def connName (name : List Char) (id : ConnId) : List Char :=
  name ++ ('-' :: name ++ '#' :: Nat.toDigits 10 id).take 31

def loops (s : TcpServer) : List ServerLoop :=
  .base :: (List.range s.threadPool.loops).map .io

def Made (s : TcpServer) (c : ConnId) : Prop := 1 ≤ c ∧ c < s.nextConnId

instance instDecidableMade (s : TcpServer) (c : ConnId) : Decidable (s.Made c) :=
  inferInstanceAs (Decidable (_ ∧ _))

def modify (s : TcpServer) (c : ConnId) (f : ServerConnection → ServerConnection) : TcpServer :=
  { s with conns := Function.update s.conns c (f (s.conns c)) }

def push (s : TcpServer) (loop : ServerLoop) (tasks : List LoopTask) : TcpServer :=
  { s with work := s.work.push loop tasks }

def queueInLoop (s : TcpServer) (loop : ServerLoop) (task : LoopTask) : TcpServer :=
  { s with work := s.work.enqueue loop task }

def runInLoop (s : TcpServer) (current : Option ServerLoop) (loop : ServerLoop)
    (task : LoopTask) : TcpServer :=
  { s with work := s.work.give current loop task }

/-- A new connection in the table, for the next loop. -/
def addConnection (s : TcpServer) (sockfd : Nat) (nowMs : Int) : TcpServer :=
  let id := s.nextConnId
  let next := s.threadPool.getNextLoop
  { s with
    nextConnId := id + 1
    threadPool := next.2
    connections := s.connections.insert (connName s.name id) id
    conns := Function.update s.conns id
      ⟨next.1, .connecting, ⟨sockfd, ⟨false, false⟩, .unregistered⟩, nowMs, []⟩ }

/-- `Acceptor::handleRead` has accepted a socket. -/
def newConnection (s : TcpServer) (sockfd : Nat) (nowMs : Int) : TcpServer :=
  (s.addConnection sockfd nowMs).runInLoop (some .base) s.threadPool.getNextLoop.1
    (.connectEstablished s.nextConnId)

/-- The loop on which a task has to run. -/
def home (s : TcpServer) : LoopTask → Option ServerLoop
  | .connectEstablished c | .handleEvent c _ | .handleClose c | .sendInLoop c
  | .shutdownInLoop c | .writeComplete c | .handler c _ | .closeCallback c
  | .connectDestroyed c | .removeChannel c => some (s.conns c).loop
  | .removeConnectionInLoop _ | .checkIdleTimeout _ | .nextIdle _ => some .base
  | .running => none

def require (s : TcpServer) (condition : Bool) : TcpServer :=
  { s with aborted := s.aborted || !condition }

/-- The frames of the connection callback, if there is one. -/
def callbackFrames (s : TcpServer) : List LoopTask :=
  if s.connectionCallback then [.running] else []

def connectEstablished (s : TcpServer) (c : ConnId) : TcpServer :=
  ((s.modify c fun conn => { conn with
    state := .connected
    channel := conn.channel.update .enableReading
    calls := conn.calls ++ [.established] }).push (s.conns c).loop s.callbackFrames).require
      ((s.conns c).state == .connecting)

def handleClose (s : TcpServer) (c : ConnId) : TcpServer :=
  let state := (s.conns c).state
  if state = .disconnected then s
  else
    ((s.modify c fun conn => { conn with
      state := .disconnected
      channel := conn.channel.update .disableAll
      calls := conn.calls ++ [.closed] }).push (s.conns c).loop
        (s.callbackFrames ++ [.closeCallback c])).require
          (state == .connected || state == .disconnecting)

/-- `removeConnection`. -/
def closeCallback (s : TcpServer) (current : ServerLoop) (c : ConnId) : TcpServer :=
  s.runInLoop (some current) .base (.removeConnectionInLoop c)

def Listed (s : TcpServer) (name : List Char) : Prop :=
  ∃ entry ∈ s.connections.entries, entry.1 = name

instance instDecidableListed (s : TcpServer) (name : List Char) : Decidable (s.Listed name) :=
  inferInstanceAs (Decidable (∃ entry ∈ s.connections.entries, _))

def eraseConnection (s : TcpServer) (name : List Char) : TcpServer :=
  { s with connections := s.connections.erase name }

def removeConnectionInLoop (s : TcpServer) (c : ConnId) : TcpServer :=
  let name := connName s.name c
  if s.Listed name then
    (s.eraseConnection name).queueInLoop (s.conns c).loop (.connectDestroyed c)
  else s

def connectDestroyed (s : TcpServer) (c : ConnId) : TcpServer :=
  if (s.conns c).state = .connected then
    (s.modify c fun conn => { conn with
      state := .disconnected
      channel := conn.channel.update .disableAll
      calls := conn.calls ++ [.destroyed] }).push (s.conns c).loop
        (s.callbackFrames ++ [.removeChannel c])
  else
    (s.modify c fun conn => { conn with
      calls := conn.calls ++ [.destroyed] }).push (s.conns c).loop [.removeChannel c]

def removeChannel (s : TcpServer) (c : ConnId) : TcpServer :=
  s.modify c fun conn => { conn with channel := conn.channel.remove }

def updateActiveTime (s : TcpServer) (c : ConnId) (nowMs : Int) : TcpServer :=
  s.modify c fun conn => { conn with lastActiveTimeMs := nowMs }

def changeEvents (s : TcpServer) (c : ConnId) (change : Channel.Change) : TcpServer :=
  s.modify c fun conn => { conn with channel := conn.channel.update change }

def handleRead (s : TcpServer) (c : ConnId) (nowMs : Int) (outcome : SocketOutcome) : TcpServer :=
  let s := s.updateActiveTime c nowMs
  match outcome with
  | .callback => s.push (s.conns c).loop [.running]
  | .close => s.push (s.conns c).loop [.handleClose c]
  | _ => s

def handleWrite (s : TcpServer) (c : ConnId) (nowMs : Int) (outcome : SocketOutcome) : TcpServer :=
  let s := s.updateActiveTime c nowMs
  if (s.conns c).channel.events.isWriting then
    match outcome with
    | .written =>
        (s.changeEvents c .disableWriting).queueInLoop (s.conns c).loop (.writeComplete c)
    | .close => s.push (s.conns c).loop [.handleClose c]
    | _ => s
  else s

def handleError (s : TcpServer) (c : ConnId) (outcome : SocketOutcome) : TcpServer :=
  match outcome with
  | .close => s.push (s.conns c).loop [.handleClose c]
  | _ => s

/-- `Channel::handleEvent`, up to the callbacks that it calls. -/
def handleEvent (s : TcpServer) (c : ConnId) (revents : Revents) : TcpServer :=
  s.push (s.conns c).loop ((Channel.handleEvent revents).map (.handler c))

def runHandler (s : TcpServer) (c : ConnId) (nowMs : Int) (outcome : SocketOutcome) :
    Channel.Callback → TcpServer
  | .read => s.handleRead c nowMs outcome
  | .write => s.handleWrite c nowMs outcome
  | .close => s.push (s.conns c).loop [.handleClose c]
  | .error => s.handleError c outcome

def sendInLoop (s : TcpServer) (c : ConnId) (outcome : SocketOutcome) : TcpServer :=
  match outcome with
  | .rest =>
      if (s.conns c).channel.events.isWriting then s else s.changeEvents c .enableWriting
  | .written => s.queueInLoop (s.conns c).loop (.writeComplete c)
  | .close => s.push (s.conns c).loop [.handleClose c]
  | _ => s

def forceClose (s : TcpServer) (current : Option ServerLoop) (c : ConnId) : TcpServer :=
  if (s.conns c).state = .connected then
    (s.modify c fun conn => { conn with state := .disconnecting }).runInLoop current
      (s.conns c).loop (.handleClose c)
  else s

/-- The idle check of one connection; the iterator stays at its entry. -/
def checkIdleTimeout (s : TcpServer) (name : List Char) (nowMs : Int) : TcpServer :=
  match s.connections.entries.find? fun entry => decide (entry.1 = name) with
  | none => s
  | some (_, c) =>
      let s := s.push .base [.nextIdle name]
      let elapsed := (nowMs - (s.conns c).lastActiveTimeMs).tdiv 1000
      if elapsed ≥ s.idleTimeoutSeconds then s.forceClose (some .base) c else s

/-- The iterator moves on.  An iterator whose entry was erased is lost. -/
def nextIdle (s : TcpServer) (name : List Char) : TcpServer :=
  if s.Listed name then
    match s.connections.entries.find? fun entry => decide (name < entry.1) with
    | none => s
    | some (later, _) => s.push .base [.checkIdleTimeout later]
  else { s with iteratorLost := true }

/-- What a task does. -/
def perform (s : TcpServer) (current : ServerLoop) (nowMs : Int) (outcome : SocketOutcome) :
    LoopTask → TcpServer
  | .connectEstablished c => s.connectEstablished c
  | .handleEvent c revents => s.handleEvent c revents
  | .handleClose c => s.handleClose c
  | .sendInLoop c => if (s.conns c).state = .connected then s.sendInLoop c outcome else s
  | .shutdownInLoop _ => s
  | .writeComplete _ => s.push current [.running]
  | .handler c callback => s.runHandler c nowMs outcome callback
  | .closeCallback c => s.closeCallback current c
  | .removeConnectionInLoop c => s.removeConnectionInLoop c
  | .connectDestroyed c => s.connectDestroyed c
  | .removeChannel c => s.removeChannel c
  | .checkIdleTimeout name => s.checkIdleTimeout name nowMs
  | .nextIdle name => s.nextIdle name
  | .running => s

/-- Run a task on a loop. -/
def run (s : TcpServer) (current : ServerLoop) (nowMs : Int) (outcome : SocketOutcome)
    (task : LoopTask) : TcpServer :=
  (s.perform current nowMs outcome task).require ((s.home task).getD current == current)

def send (s : TcpServer) (current : Option ServerLoop) (c : ConnId) (outcome : SocketOutcome) :
    TcpServer :=
  if (s.conns c).state = .connected then
    if current = some (s.conns c).loop then s.sendInLoop c outcome
    else s.queueInLoop (s.conns c).loop (.sendInLoop c)
  else s

/-- A call of `shutdown` on the loop of the connection. -/
def shutdown (s : TcpServer) (c : ConnId) : TcpServer :=
  if (s.conns c).state = .connected then
    (s.modify c fun conn => { conn with state := .disconnecting }).push (s.conns c).loop
      [.shutdownInLoop c]
  else s

def setShutdowns (s : TcpServer) (shutdowns : List ConnId) : TcpServer :=
  { s with shutdowns := shutdowns }

/-- The rest of a call of `shutdown` on another thread that has found the connection
connected. -/
def storeDisconnecting (s : TcpServer) (c : ConnId) : TcpServer :=
  ((s.setShutdowns (s.shutdowns.erase c)).modify c fun conn =>
    { conn with state := .disconnecting }).queueInLoop (s.conns c).loop (.shutdownInLoop c)

/-- User code may run: on a thread that is no loop of the server, between the steps of a
loop, or in a callback. -/
def callable (s : TcpServer) : Option ServerLoop → Bool
  | none => true
  | some loop =>
      match (s.work loop).stack with
      | [] => true
      | .running :: _ => true
      | _ => false

/-- The loop has nothing to do but to handle events. -/
def polls (s : TcpServer) (loop : ServerLoop) : Bool :=
  match (s.work loop).stack with
  | [] => true
  | .handleEvent _ _ :: _ => true
  | _ => false

/-- The frames that an exception of the callback that runs on the loop skips. -/
def unwound (s : TcpServer) (loop : ServerLoop) : List LoopTask :=
  (s.work loop).stack.tail.takeWhile fun task => !task.catches

def unwind (s : TcpServer) (loop : ServerLoop) : TcpServer :=
  { s with work := s.work.unwind loop LoopTask.catches }

/-- The channel is registered at the loop. -/
def Polled (s : TcpServer) (loop : ServerLoop) (c : ConnId) : Prop :=
  s.Made c ∧ (s.conns c).loop = loop ∧ (s.conns c).channel.index = .added

instance instDecidablePolled (s : TcpServer) (loop : ServerLoop) (c : ConnId) :
    Decidable (s.Polled loop c) :=
  inferInstanceAs (Decidable (_ ∧ _ ∧ _))

def step (s : TcpServer) : Event → Option TcpServer
  | .accept sockfd nowMs =>
      if s.nextConnId < 2 ^ 31 - 1 ∧ s.polls .base then some (s.newConnection sockfd nowMs)
      else none
  | .epollWait loop active =>
      if (∀ entry ∈ active, s.Polled loop entry.1) ∧ (active.map Prod.fst).Nodup ∧
          (s.work loop).stack = [] then
        some (s.push loop (active.map fun entry => .handleEvent entry.1 entry.2))
      else none
  | .start loop => (s.work.start loop).map fun work => { s with work := work }
  | .proceed loop nowMs outcome =>
      match s.work.pop loop with
      | none => none
      | some (.running, _) => none
      | some (task, work) => some ({ s with work := work }.run loop nowMs outcome task)
  | .callbackReturns loop =>
      match s.work.pop loop with
      | some (.running, work) => some { s with work := work }
      | _ => none
  | .callbackThrows loop =>
      match s.work.pop loop with
      | some (.running, work) => some ({ s with work := work }.unwind loop)
      | _ => none
  | .send current c outcome =>
      if s.Made c ∧ s.callable current then some (s.send current c outcome) else none
  | .shutdown c =>
      if s.Made c ∧ s.callable (some (s.conns c).loop) then some (s.shutdown c) else none
  | .shutdownReads c =>
      if s.Made c ∧ (s.conns c).state = .connected then
        some (s.setShutdowns (c :: s.shutdowns))
      else none
  | .shutdownStores c =>
      if c ∈ s.shutdowns then some (s.storeDisconnecting c) else none
  | .forceClose current c =>
      if s.Made c ∧ s.callable current then some (s.forceClose current c) else none
  | .checkIdle =>
      if 0 < s.idleTimeoutSeconds ∧ (s.work .base).stack = [] then
        match s.connections.entries.head? with
        | none => some s
        | some (name, _) => some (s.push .base [.checkIdleTimeout name])
      else none

/-! ## The steps of a server -/

/-- The steps that are possible in a state. -/
inductive Steps (s : TcpServer) : Event → TcpServer → Prop
  | accept {sockfd : Nat} {nowMs : Int} (few : s.nextConnId < 2 ^ 31 - 1)
      (polls : s.polls .base = true) : Steps s (.accept sockfd nowMs) (s.newConnection sockfd nowMs)
  | epollWait {loop : ServerLoop} {active : List (ConnId × Revents)}
      (polled : ∀ entry ∈ active, s.Polled loop entry.1) (idle : (s.work loop).stack = []) :
      Steps s (.epollWait loop active)
        (s.push loop (active.map fun entry => .handleEvent entry.1 entry.2))
  | start {loop : ServerLoop} {work : Workers ServerLoop LoopTask}
      (taken : s.work.start loop = some work) : Steps s (.start loop) { s with work := work }
  | proceed {loop : ServerLoop} {nowMs : Int} {outcome : SocketOutcome} {task : LoopTask}
      {work : Workers ServerLoop LoopTask} (popped : s.work.pop loop = some (task, work)) :
      Steps s (.proceed loop nowMs outcome) ({ s with work := work }.run loop nowMs outcome task)
  | callbackReturns {loop : ServerLoop} {work : Workers ServerLoop LoopTask}
      (popped : s.work.pop loop = some (.running, work)) :
      Steps s (.callbackReturns loop) { s with work := work }
  | callbackThrows {loop : ServerLoop} {work : Workers ServerLoop LoopTask}
      (popped : s.work.pop loop = some (.running, work)) :
      Steps s (.callbackThrows loop) ({ s with work := work }.unwind loop)
  | send {current : Option ServerLoop} {c : ConnId} {outcome : SocketOutcome} (made : s.Made c)
      (callable : s.callable current = true) :
      Steps s (.send current c outcome) (s.send current c outcome)
  | shutdown {c : ConnId} (made : s.Made c)
      (callable : s.callable (some (s.conns c).loop) = true) : Steps s (.shutdown c) (s.shutdown c)
  | shutdownReads {c : ConnId} (made : s.Made c) (connected : (s.conns c).state = .connected) :
      Steps s (.shutdownReads c) (s.setShutdowns (c :: s.shutdowns))
  | shutdownStores {c : ConnId} (late : c ∈ s.shutdowns) :
      Steps s (.shutdownStores c) (s.storeDisconnecting c)
  | forceClose {current : Option ServerLoop} {c : ConnId} (made : s.Made c)
      (callable : s.callable current = true) :
      Steps s (.forceClose current c) (s.forceClose current c)
  | checkNothing (idle : (s.work .base).stack = []) : Steps s .checkIdle s
  | checkIdle {entry : List Char × ConnId} (idle : (s.work .base).stack = [])
      (first : s.connections.entries.head? = some entry) :
      Steps s .checkIdle (s.push .base [.checkIdleTimeout entry.1])

theorem steps_of_step {s next : TcpServer} {event : Event} (taken : s.step event = some next) :
    Steps s event next := by
  cases event with
  | accept sockfd nowMs =>
      obtain ⟨⟨few, polls⟩, ⟨⟩⟩ := Option.ite_none_right_eq_some.mp taken
      exact .accept few polls
  | epollWait loop active =>
      obtain ⟨⟨polled, _, idle⟩, ⟨⟩⟩ := Option.ite_none_right_eq_some.mp taken
      exact .epollWait polled idle
  | start loop =>
      obtain ⟨work, started, rfl⟩ := Option.map_eq_some_iff.mp taken
      exact .start started
  | proceed loop nowMs outcome =>
      rw [step] at taken
      split at taken
      · cases taken
      · cases taken
      · next popped =>
          cases taken
          exact .proceed popped
  | callbackReturns loop =>
      rw [step] at taken
      split at taken
      · next popped =>
          cases taken
          exact .callbackReturns popped
      · cases taken
  | callbackThrows loop =>
      rw [step] at taken
      split at taken
      · next popped =>
          cases taken
          exact .callbackThrows popped
      · cases taken
  | send current c outcome =>
      obtain ⟨⟨made, callable⟩, ⟨⟩⟩ := Option.ite_none_right_eq_some.mp taken
      exact .send made callable
  | shutdown c =>
      obtain ⟨⟨made, callable⟩, ⟨⟩⟩ := Option.ite_none_right_eq_some.mp taken
      exact .shutdown made callable
  | shutdownReads c =>
      obtain ⟨⟨made, connected⟩, ⟨⟩⟩ := Option.ite_none_right_eq_some.mp taken
      exact .shutdownReads made connected
  | shutdownStores c =>
      obtain ⟨late, ⟨⟩⟩ := Option.ite_none_right_eq_some.mp taken
      exact .shutdownStores late
  | forceClose current c =>
      obtain ⟨⟨made, callable⟩, ⟨⟩⟩ := Option.ite_none_right_eq_some.mp taken
      exact .forceClose made callable
  | checkIdle =>
      obtain ⟨⟨_, idle⟩, checked⟩ := Option.ite_none_right_eq_some.mp taken
      split at checked
      · cases checked
        exact .checkNothing idle
      · next first =>
          cases checked
          exact .checkIdle idle first

end TcpServer

end RpcFramework
