import RpcFramework.Network.TcpServer

/-!
# What the tasks of a server do

The ways through the functions that the loops run, each with the state that it leaves.
What the other modules say about a step of a loop is read off these cases.  Only a new
connection changes the pool, the names and the loops of the connections.
-/

namespace RpcFramework

open TcpConnection

/-- What a pending task will do to the life of its connection. -/
inductive LifeKind where
  | establish
  | close
  | destroy
  | remove
  | busy
  deriving DecidableEq, Repr

namespace LoopTask

def kind : LoopTask → Option (ConnId × LifeKind)
  | .connectEstablished c => some (c, .establish)
  | .handleEvent c _ | .handleClose c | .sendInLoop c | .shutdownInLoop c | .writeComplete c
  | .handler c _ => some (c, .busy)
  | .closeCallback c | .removeConnectionInLoop c => some (c, .close)
  | .connectDestroyed c => some (c, .destroy)
  | .removeChannel c => some (c, .remove)
  | .checkIdleTimeout _ | .nextIdle _ | .running => none

/-- The frames that another one can be on top of. -/
def Waits : LoopTask → Prop
  | .handleEvent _ _ | .handler _ _ | .closeCallback _ | .nextIdle _ | .running => True
  | _ => False

/-- The tasks that use the socket of a connection. -/
def Talks (c : ConnId) (task : LoopTask) : Prop :=
  task = .sendInLoop c ∨ ∃ callback, task = .handler c callback

theorem Talks.kind {c : ConnId} {task : LoopTask} (talks : task.Talks c) :
    task.kind = some (c, .busy) := by
  rcases talks with rfl | ⟨callback, rfl⟩
  · rfl
  · rfl

end LoopTask

namespace TcpServer


/-- The state is the same, but the connection may have been active. -/
def Touched (s : TcpServer) (c : ConnId) (t : TcpServer) : Prop :=
  t = s ∨ ∃ nowMs, t = s.updateActiveTime c nowMs

/-- What a task does that a loop takes off its stack. -/
inductive Does (s : TcpServer) (loop : ServerLoop) : LoopTask → TcpServer → Prop
  | establish (c : ConnId) : Does s loop (.connectEstablished c) (s.connectEstablished c)
  | handleEvent (c : ConnId) (revents : Revents) :
      Does s loop (.handleEvent c revents) (s.handleEvent c revents)
  | close (c : ConnId) (opened : (s.conns c).state ≠ .disconnected) :
      Does s loop (.handleClose c) (((s.modify c fun conn => { conn with
        state := .disconnected
        channel := conn.channel.update .disableAll
        calls := conn.calls ++ [.closed] }).push (s.conns c).loop
          (s.callbackFrames ++ [.closeCallback c])).require
            ((s.conns c).state == .connected || (s.conns c).state == .disconnecting))
  | finish {c : ConnId} {task : LoopTask} {t : TcpServer} (busy : task.kind = some (c, .busy))
      (touched : Touched s c t) : Does s loop task t
  | callBack {c : ConnId} {task : LoopTask} {t : TcpServer} (talks : task.Talks c)
      (touched : Touched s c t) : Does s loop task (t.push (s.conns c).loop [.running])
  | callClose {c : ConnId} {task : LoopTask} {t : TcpServer} (talks : task.Talks c)
      (touched : Touched s c t) : Does s loop task (t.push (s.conns c).loop [.handleClose c])
  | wantWrite (c : ConnId) (connected : (s.conns c).state = .connected) :
      Does s loop (.sendInLoop c) (s.changeEvents c .enableWriting)
  | send (c : ConnId) (connected : (s.conns c).state = .connected) :
      Does s loop (.sendInLoop c) (s.queueInLoop (s.conns c).loop (.writeComplete c))
  | write {c : ConnId} {t : TcpServer} (touched : Touched s c t)
      (writing : (t.conns c).channel.events.isWriting = true) :
      Does s loop (.handler c .write)
        ((t.changeEvents c .disableWriting).queueInLoop (s.conns c).loop (.writeComplete c))
  | writeComplete (c : ConnId) : Does s loop (.writeComplete c) (s.push loop [.running])
  | ask (c : ConnId) : Does s loop (.closeCallback c) (s.closeCallback loop c)
  | unlist (c : ConnId) (listed : s.Listed (connName s.name c)) :
      Does s loop (.removeConnectionInLoop c)
        ((s.eraseConnection (connName s.name c)).queueInLoop (s.conns c).loop (.connectDestroyed c))
  | ignore (c : ConnId) (missing : ¬ s.Listed (connName s.name c)) :
      Does s loop (.removeConnectionInLoop c) s
  | destroyConnected (c : ConnId) (connected : (s.conns c).state = .connected) :
      Does s loop (.connectDestroyed c) ((s.modify c fun conn => { conn with
        state := .disconnected
        channel := conn.channel.update .disableAll
        calls := conn.calls ++ [.destroyed] }).push (s.conns c).loop
          (s.callbackFrames ++ [.removeChannel c]))
  | destroy (c : ConnId) (ended : (s.conns c).state ≠ .connected) :
      Does s loop (.connectDestroyed c) ((s.modify c fun conn => { conn with
        calls := conn.calls ++ [.destroyed] }).push (s.conns c).loop [.removeChannel c])
  | remove (c : ConnId) : Does s loop (.removeChannel c) (s.removeChannel c)
  | rest {task : LoopTask} (free : task.kind = none) : Does s loop task s
  | check (name : List Char) :
      Does s loop (.checkIdleTimeout name) (s.push .base [.nextIdle name])
  | expire {name : List Char} {entry : List Char × ConnId} (listed : entry ∈ s.connections.entries) :
      Does s loop (.checkIdleTimeout name)
        ((s.push .base [.nextIdle name]).forceClose (some .base) entry.2)
  | advance {name : List Char} {entry : List Char × ConnId}
      (found : s.connections.entries.find? (fun other => decide (name < other.1)) = some entry) :
      Does s loop (.nextIdle name) (s.push .base [.checkIdleTimeout entry.1])
  | lose {name : List Char} (missing : ¬ s.Listed name) :
      Does s loop (.nextIdle name) { s with iteratorLost := true }

section Does

variable {s t : TcpServer} {c : ConnId} {loop : ServerLoop} {task : LoopTask}

theorem does_sendInLoop (connected : (s.conns c).state = .connected) (outcome : SocketOutcome) :
    Does s loop (.sendInLoop c) (s.sendInLoop c outcome) := by
  unfold sendInLoop
  cases outcome with
  | done | callback => exact .finish rfl (.inl rfl)
  | rest =>
      dsimp only
      split
      · exact .finish rfl (.inl rfl)
      · exact .wantWrite c connected
  | written => exact .send c connected
  | close => exact .callClose (.inl rfl) (.inl rfl)

theorem does_runHandler (nowMs : Int) (outcome : SocketOutcome) (callback : Channel.Callback) :
    Does s loop (.handler c callback) (s.runHandler c nowMs outcome callback) := by
  have active : Touched s c (s.updateActiveTime c nowMs) := .inr ⟨nowMs, rfl⟩
  have home : ((s.updateActiveTime c nowMs).conns c).loop = (s.conns c).loop := by
    simp [updateActiveTime, modify]
  unfold runHandler
  cases callback with
  | read =>
      unfold handleRead
      dsimp only
      rw [home]
      cases outcome with
      | callback => exact .callBack (.inr ⟨_, rfl⟩) active
      | close => exact .callClose (.inr ⟨_, rfl⟩) active
      | done | rest | written => exact .finish rfl active
  | write =>
      unfold handleWrite
      dsimp only
      rw [home]
      split
      · next writing =>
          cases outcome with
          | written => exact .write active writing
          | close => exact .callClose (.inr ⟨_, rfl⟩) active
          | done | rest | callback => exact .finish rfl active
      · exact .finish rfl active
  | close => exact .callClose (.inr ⟨_, rfl⟩) (.inl rfl)
  | error =>
      cases outcome with
      | close => exact .callClose (.inr ⟨_, rfl⟩) (.inl rfl)
      | done | rest | written | callback => exact .finish rfl (.inl rfl)

theorem does_perform (nowMs : Int) (outcome : SocketOutcome) (task : LoopTask) :
    Does s loop task (s.perform loop nowMs outcome task) := by
  cases task with
  | connectEstablished c => exact .establish c
  | handleEvent c revents => exact .handleEvent c revents
  | handleClose c =>
      rw [perform]
      unfold handleClose
      dsimp only
      split
      · exact .finish rfl (.inl rfl)
      · next opened => exact .close c opened
  | sendInLoop c =>
      rw [perform]
      split
      · next connected => exact does_sendInLoop connected outcome
      · exact .finish rfl (.inl rfl)
  | shutdownInLoop c => exact .finish rfl (.inl rfl)
  | writeComplete c => exact .writeComplete c
  | handler c callback => exact does_runHandler nowMs outcome callback
  | closeCallback c => exact .ask c
  | removeConnectionInLoop c =>
      rw [perform]
      unfold removeConnectionInLoop
      dsimp only
      split
      · next listed => exact .unlist c listed
      · next missing => exact .ignore c missing
  | connectDestroyed c =>
      rw [perform]
      unfold connectDestroyed
      split
      · next connected => exact .destroyConnected c connected
      · next ended => exact .destroy c ended
  | removeChannel c => exact .remove c
  | checkIdleTimeout name =>
      rw [perform]
      unfold checkIdleTimeout
      split
      · exact .rest rfl
      · next id found =>
          dsimp only
          split
          · exact .expire (List.mem_of_find?_eq_some found)
          · exact .check name
  | nextIdle name =>
      rw [perform]
      unfold nextIdle
      split
      · split
        · exact .rest rfl
        · next found => exact .advance found
      · next missing => exact .lose missing
  | running => exact .rest rfl

end Does

/-! ## What decides where a task belongs -/

/-- What decides where the tasks of a server belong is the same. -/
structure SameFrame (t s : TcpServer) : Prop where
  name : t.name = s.name
  threadPool : t.threadPool = s.threadPool
  nextConnId : t.nextConnId = s.nextConnId
  homes : ∀ c, (t.conns c).loop = (s.conns c).loop

section Frame

variable {s t : TcpServer} {c : ConnId} {loop : ServerLoop}

namespace SameFrame

theorem refl : SameFrame s s := ⟨rfl, rfl, rfl, fun _ => rfl⟩

theorem modified (same : SameFrame t s) {f : ServerConnection → ServerConnection}
    (keeps : ∀ conn, (f conn).loop = conn.loop) : SameFrame (t.modify c f) s := by
  refine ⟨same.name, same.threadPool, same.nextConnId, ?_⟩
  intro d
  change (Function.update t.conns c _ d).loop = _
  rw [← same.homes d]
  by_cases own : d = c
  · subst own
    rw [Function.update_self]
    exact keeps _
  · rw [Function.update_of_ne own]

theorem pushed (same : SameFrame t s) (tasks : List LoopTask) :
    SameFrame (t.push loop tasks) s :=
  ⟨same.name, same.threadPool, same.nextConnId, same.homes⟩

theorem queued (same : SameFrame t s) (task : LoopTask) :
    SameFrame (t.queueInLoop loop task) s :=
  ⟨same.name, same.threadPool, same.nextConnId, same.homes⟩

theorem given (same : SameFrame t s) (current : Option ServerLoop) (task : LoopTask) :
    SameFrame (t.runInLoop current loop task) s :=
  ⟨same.name, same.threadPool, same.nextConnId, same.homes⟩

theorem required (same : SameFrame t s) (condition : Bool) : SameFrame (t.require condition) s :=
  ⟨same.name, same.threadPool, same.nextConnId, same.homes⟩

theorem working (same : SameFrame t s) (work : Workers ServerLoop LoopTask) :
    SameFrame { t with work := work } s :=
  ⟨same.name, same.threadPool, same.nextConnId, same.homes⟩

theorem forceClosed (same : SameFrame t s) (current : Option ServerLoop) :
    SameFrame (t.forceClose current c) s := by
  unfold forceClose
  split
  · refine (same.modified ?_).given _ _
    exact fun _ => rfl
  · exact same

end SameFrame

theorem Touched.sameFrame (touched : Touched s c t) : SameFrame t s := by
  rcases touched with rfl | ⟨nowMs, rfl⟩
  · exact .refl
  · exact SameFrame.refl.modified fun _ => rfl

theorem Touched.mem_loops (touched : Touched s c t) (here : loop ∈ s.loops) : loop ∈ t.loops := by
  rw [loops, touched.sameFrame.threadPool]
  exact here

theorem Does.sameFrame {task : LoopTask} (does : Does s loop task t) : SameFrame t s := by
  cases does with
  | establish | close =>
      refine ((SameFrame.refl.modified ?_).pushed _).required _
      exact fun _ => rfl
  | finish busy touched => exact touched.sameFrame
  | callBack talks touched | callClose talks touched => exact touched.sameFrame.pushed _
  | wantWrite | remove => exact SameFrame.refl.modified fun _ => rfl
  | write touched writing =>
      refine (touched.sameFrame.modified ?_).queued _
      exact fun _ => rfl
  | destroyConnected | destroy =>
      refine (SameFrame.refl.modified ?_).pushed _
      exact fun _ => rfl
  | expire => exact (SameFrame.refl.pushed _).forceClosed _
  | handleEvent | send | writeComplete | ask | unlist | ignore | rest | check | advance | lose =>
      exact ⟨rfl, rfl, rfl, fun _ => rfl⟩

theorem sameFrame_run {work : Workers ServerLoop LoopTask} (nowMs : Int) (outcome : SocketOutcome)
    (task : LoopTask) : SameFrame ({ s with work := work }.run loop nowMs outcome task) s := by
  have same := (@does_perform { s with work := work } loop nowMs outcome task).sameFrame
  exact ⟨same.name, same.threadPool, same.nextConnId, same.homes⟩

theorem sameFrame_send (current : Option ServerLoop) (outcome : SocketOutcome) :
    SameFrame (s.send current c outcome) s := by
  unfold send
  split
  · next connected =>
      split
      · exact (@does_sendInLoop s c .base connected outcome).sameFrame
      · exact SameFrame.refl.queued _
  · exact .refl

theorem sameFrame_shutdown : SameFrame (s.shutdown c) s := by
  unfold shutdown
  split
  · refine (SameFrame.refl.modified ?_).pushed _
    exact fun _ => rfl
  · exact .refl

theorem sameFrame_storeDisconnecting : SameFrame (s.storeDisconnecting c) s := by
  have fewer : SameFrame (s.setShutdowns (s.shutdowns.erase c)) s := ⟨rfl, rfl, rfl, fun _ => rfl⟩
  refine (fewer.modified ?_).queued _
  exact fun _ => rfl

/-- Only a new connection changes what decides where the tasks belong. -/
theorem sameFrame_step {event : Event} {next : TcpServer}
    (old : ∀ sockfd nowMs, event ≠ .accept sockfd nowMs) (taken : s.step event = some next) :
    SameFrame next s := by
  cases steps_of_step taken with
  | accept => exact absurd rfl (old _ _)
  | epollWait => exact SameFrame.refl.pushed _
  | start | callbackReturns => exact SameFrame.refl.working _
  | callbackThrows => exact ⟨rfl, rfl, rfl, fun _ => rfl⟩
  | proceed => exact sameFrame_run _ _ _
  | send => exact sameFrame_send _ _
  | shutdown => exact sameFrame_shutdown
  | shutdownReads => exact ⟨rfl, rfl, rfl, fun _ => rfl⟩
  | shutdownStores => exact sameFrame_storeDisconnecting
  | forceClose => exact SameFrame.refl.forceClosed _
  | checkNothing => exact .refl
  | checkIdle => exact SameFrame.refl.pushed _

theorem newConnection_or_sameFrame {event : Event} {next : TcpServer}
    (taken : s.step event = some next) :
    (∃ sockfd nowMs, next = s.newConnection sockfd nowMs) ∨ SameFrame next s := by
  by_cases new : ∃ sockfd nowMs, event = .accept sockfd nowMs
  · obtain ⟨sockfd, nowMs, rfl⟩ := new
    cases steps_of_step taken with
    | accept => exact Or.inl ⟨sockfd, nowMs, rfl⟩
  · exact Or.inr (sameFrame_step (fun sockfd nowMs is => new ⟨sockfd, nowMs, is⟩) taken)

end Frame

end TcpServer

end RpcFramework
