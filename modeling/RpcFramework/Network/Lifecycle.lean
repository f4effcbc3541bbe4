import RpcFramework.Network.GracefulShutdown

/-!
# The life of a connection

A connection is established once, and closed from many places: by an error, a
hang-up, an end of input or a failed write, by `forceClose`, by the idle check,
and by `connectDestroyed`.  Each of them may run inside a callback of another
one.

The loop thread is a stack of frames: what is still to be run of a dispatched
event, the callbacks that are still to be invoked, and the callbacks that run.
While a callback runs, the connection may be called again.  Whether the channel
is known to the poller is left out.
-/

namespace RpcFramework

open StepRun TcpConnection

/-- The bits of `revents_`. -/
structure Revents where
  epollErr : Bool
  epollHup : Bool
  epollIn : Bool
  epollPri : Bool
  epollRdHup : Bool
  epollOut : Bool
  deriving DecidableEq, Repr

namespace Channel

/-- The callbacks that a connection gives to its channel. -/
inductive Callback where
  | read
  | write
  | close
  | error
  deriving DecidableEq, Repr

def enableReading (channel : Channel) : Channel := { channel with isReading := true }

/-- The callbacks that `handleEvent` calls. -/
def handleEvent (revents : Revents) : List Callback :=
  if revents.epollErr then [.error, .close]
  else
    (if revents.epollHup && !revents.epollIn then [.close] else []) ++
    (if revents.epollIn || revents.epollPri then [.read] else []) ++
    (if revents.epollRdHup then [.read, .close] else []) ++
    (if revents.epollOut then [.write] else [])

end Channel

/-- The callbacks of the user of a connection. -/
inductive UserCallback where
  | connection
  | message
  | close
  | writeComplete
  deriving DecidableEq, Repr

/-- Which of the callbacks are set; that of completed writes is a member of the
output side. -/
structure Hooks where
  connection : Bool
  message : Bool
  close : Bool
  deriving DecidableEq, Repr

/-- What the loop thread has to do for a connection: a callback of the channel, a
callback of the user that is to be invoked, or one that runs. -/
inductive Frame where
  | handler (callback : Channel.Callback)
  | callback (callback : UserCallback)
  | running
  deriving DecidableEq, Repr

/-- `readFd` returns the number of bytes that it has appended, or fails. -/
inductive ReadResult where
  | bytes (data : Bytes)
  | failed
  deriving DecidableEq, Repr

/-- The answers of the system to one callback of the channel. -/
structure Answers where
  read : ReadResult
  write : WriteResult
  soError : Bool
  nowMs : Int

/-- A connection with its input side, its idle check and its callbacks.
`forcedCloses` counts the queued functors of `forceClose`, which are run in any
order with the others; the log holds the callbacks that were invoked, with
`connected()` at that moment. -/
structure Lifecycle where
  conn : TcpConnection
  inputBuffer : Buffer
  hooks : Hooks
  idleTimeoutSeconds : Int
  lastActiveTimeMs : Int
  forcedCloses : Nat
  frames : List Frame
  log : List (UserCallback × Bool)
  assertFailed : Bool
  deriving DecidableEq

namespace Lifecycle

inductive Event where
  | handleEvent (revents : Revents)
  | functor (result : WriteResult) (soError : Bool)
  | forcedClose
  | connectDestroyed
  | send (inLoop : Bool) (message : Bytes) (result : WriteResult) (soError : Bool)
  | shutdown (inLoop : Bool)
  | forceClose (inLoop : Bool)
  | setIdleTimeout (seconds : Int) (nowMs : Int)
  | checkIdleTimeout (inLoop : Bool) (nowMs : Int)
  | retrieve (count : Nat)
  | proceed (answers : Answers)
  | callbackReturns

/-- The constructor. -/
def constructed (hooks : Hooks) (writeCompleteCallback : Bool) (nowMs : Int) : Lifecycle where
  conn := ⟨.connecting, ⟨false, false⟩, .empty, writeCompleteCallback, [], []⟩
  inputBuffer := .empty
  hooks := hooks
  idleTimeoutSeconds := 0
  lastActiveTimeMs := nowMs
  forcedCloses := 0
  frames := []
  log := []
  assertFailed := false

def updateActiveTime (c : Lifecycle) (nowMs : Int) : Lifecycle :=
  { c with lastActiveTimeMs := nowMs }

def setIdleTimeout (c : Lifecycle) (seconds nowMs : Int) : Lifecycle :=
  { c with idleTimeoutSeconds := seconds }.updateActiveTime nowMs

def connectEstablished (c : Lifecycle) : Lifecycle :=
  { c with
    assertFailed := c.assertFailed || c.conn.state != StateE.connecting
    conn := { c.conn with state := .connected, channel := c.conn.channel.enableReading }
    frames := .callback .connection :: c.frames }

def connectDestroyed (c : Lifecycle) : Lifecycle :=
  if c.conn.state = .connected then
    { c with
      conn := { c.conn with state := .disconnected, channel := c.conn.channel.disableAll }
      frames := .callback .connection :: c.frames }
  else c

/-- The connection after one of its functions.  A function that enters
`handleClose` does nothing behind it, so the callbacks of `handleClose` are what
is still to be run.  A failed assertion is noted. -/
def become (c : Lifecycle) (conn : TcpConnection) : Lifecycle :=
  if c.conn.state ≠ .disconnected ∧ conn.state = .disconnected then
    { c with
      assertFailed := c.assertFailed ||
        !(c.conn.state == StateE.connected || c.conn.state == StateE.disconnecting)
      conn := conn
      frames := .callback .connection :: .callback .close :: c.frames }
  else { c with conn := conn }

def handleClose (c : Lifecycle) : Lifecycle := c.become c.conn.handleClose

def handleError (c : Lifecycle) (soError : Bool) : Lifecycle :=
  c.become (c.conn.handleError soError)

def handleRead (c : Lifecycle) (answers : Answers) : Lifecycle :=
  let c := c.updateActiveTime answers.nowMs
  match answers.read with
  | .bytes data =>
      let c := { c with inputBuffer := c.inputBuffer.append data }
      if data.length > 0 then
        if c.hooks.message then { c with frames := .callback .message :: c.frames }
        else { c with inputBuffer := c.inputBuffer.retrieveAll }
      else c.handleClose
  | .failed => c.handleError answers.soError

def handleWrite (c : Lifecycle) (answers : Answers) : Lifecycle :=
  let c := c.updateActiveTime answers.nowMs
  c.become (c.conn.handleWrite answers.write answers.soError)

def runHandler (c : Lifecycle) (answers : Answers) : Channel.Callback → Lifecycle
  | .read => c.handleRead answers
  | .write => c.handleWrite answers
  | .close => c.handleClose
  | .error => c.handleError answers.soError

def isSet (c : Lifecycle) : UserCallback → Bool
  | .connection => c.hooks.connection
  | .message => c.hooks.message
  | .close => c.hooks.close
  | .writeComplete => c.conn.writeCompleteCallback

def invoke (c : Lifecycle) (callback : UserCallback) : Lifecycle :=
  if c.isSet callback then
    { c with
      log := c.log ++ [(callback, c.conn.state == StateE.connected)]
      frames := .running :: c.frames }
  else c

def send (c : Lifecycle) (inLoop : Bool) (message : Bytes) (result : WriteResult)
    (soError : Bool) : Lifecycle :=
  if inLoop then
    if c.conn.state = .connected then c.become (c.conn.sendInLoop message result soError) else c
  else { c with conn := c.conn.send message }

def shutdown (c : Lifecycle) (inLoop : Bool) : Lifecycle :=
  if inLoop then
    if c.conn.state = .connected then
      { c with conn := { c.conn with state := .disconnecting }.shutdownInLoop }
    else c
  else { c with conn := c.conn.shutdown }

def forceClose (c : Lifecycle) (inLoop : Bool) : Lifecycle :=
  if c.conn.state = .connected then
    let c := { c with conn := { c.conn with state := .disconnecting } }
    if inLoop then c.handleClose else { c with forcedCloses := c.forcedCloses + 1 }
  else c

def checkIdleTimeout (c : Lifecycle) (inLoop : Bool) (nowMs : Int) : Bool × Lifecycle :=
  if c.idleTimeoutSeconds ≤ 0 then (false, c)
  else
    let elapsed := (nowMs - c.lastActiveTimeMs).tdiv 1000
    if elapsed ≥ c.idleTimeoutSeconds then (true, c.forceClose inLoop) else (false, c)

/-- Run the first functor that the connection has queued. -/
def runFunctor (c : Lifecycle) (result : WriteResult) (soError : Bool) : Option Lifecycle :=
  match c.conn.pendingFunctors with
  | [] => none
  | functor :: rest =>
      let c := { c with conn := { c.conn with pendingFunctors := rest } }
      match functor with
      | .writeComplete => some (c.invoke .writeComplete)
      | functor => some (c.become (c.conn.runFunctor result soError functor))

/-- The connection may be called: the loop is between its steps, or a callback runs. -/
def callable : List Frame → Bool
  | [] => true
  | .running :: _ => true
  | _ => false

def call (c next : Lifecycle) : Option Lifecycle := if callable c.frames then some next else none

/-- Run what is next on the stack. -/
def proceed (c : Lifecycle) (answers : Answers) : Option Lifecycle :=
  match c.frames with
  | .handler handler :: rest => some ({ c with frames := rest }.runHandler answers handler)
  | .callback callback :: rest => some ({ c with frames := rest }.invoke callback)
  | _ => none

def callbackReturns (c : Lifecycle) : Option Lifecycle :=
  match c.frames with
  | .running :: rest => some { c with frames := rest }
  | _ => none

def step (c : Lifecycle) : Event → Option Lifecycle
  | .handleEvent revents =>
      if c.frames = [] then
        some { c with frames := (Channel.handleEvent revents).map .handler }
      else none
  | .functor result soError => if c.frames = [] then c.runFunctor result soError else none
  | .forcedClose =>
      if c.frames = [] ∧ 0 < c.forcedCloses then
        some { c with forcedCloses := c.forcedCloses - 1 }.handleClose
      else none
  | .connectDestroyed => c.call c.connectDestroyed
  | .send inLoop message result soError => c.call (c.send inLoop message result soError)
  | .shutdown inLoop => c.call (c.shutdown inLoop)
  | .forceClose inLoop => c.call (c.forceClose inLoop)
  | .setIdleTimeout seconds nowMs => c.call (c.setIdleTimeout seconds nowMs)
  | .checkIdleTimeout inLoop nowMs => c.call (c.checkIdleTimeout inLoop nowMs).2
  | .retrieve count => c.call { c with inputBuffer := c.inputBuffer.retrieve count }
  | .proceed answers => c.proceed answers
  | .callbackReturns => c.callbackReturns

/-- The state right after the constructor and `connectEstablished`. -/
def established (hooks : Hooks) (writeCompleteCallback : Bool) (nowMs : Int) : Lifecycle :=
  (constructed hooks writeCompleteCallback nowMs).connectEstablished

/-- The values of `connected()` at the invocations of the connection callback. -/
def connectionReports (log : List (UserCallback × Bool)) : List Bool :=
  (log.filter fun entry => entry.1 == UserCallback.connection).map Prod.snd

/-- How often a callback was invoked. -/
def invocations (log : List (UserCallback × Bool)) (callback : UserCallback) : Nat :=
  log.countP fun entry => entry.1 == callback

/-- The connection callback was invoked for the connection and then for its end,
the close callback once, and the assertions have held. -/
structure Orderly (c : Lifecycle) : Prop where
  reported : connectionReports c.log <+: [true, false]
  closes : invocations c.log .close ≤ 1
  asserted : c.assertFailed = false

/-! ## States of the connection -/

section State

variable {conn next : TcpConnection}

/-- A function of the connection leaves the state alone or closes the connection. -/
def KeepsOrCloses (conn next : TcpConnection) : Prop :=
  next.state = conn.state ∨ next.state = .disconnected

theorem handleError_keepsOrCloses (conn : TcpConnection) (soError : Bool) :
    KeepsOrCloses conn (conn.handleError soError) := by
  cases soError with
  | false => exact Or.inl rfl
  | true => exact Or.inr conn.state_handleClose

theorem state_queueWriteComplete (conn : TcpConnection) :
    conn.queueWriteComplete.state = conn.state := by
  unfold queueWriteComplete
  split
  · rfl
  · rfl

theorem state_shutdownInLoop (conn : TcpConnection) :
    conn.shutdownInLoop.state = conn.state := by
  unfold shutdownInLoop
  split
  · rfl
  · rfl

theorem state_writeDirectly (conn : TcpConnection) (message : Bytes) (result : WriteResult) :
    (conn.writeDirectly message result).1.state = conn.state := by
  unfold writeDirectly
  split
  · cases result with
    | accepted count =>
        dsimp only
        split
        · exact state_queueWriteComplete _
        · rfl
    | failed errno => rfl
  · rfl

theorem state_bufferRest (conn : TcpConnection) (rest : Bytes) :
    (conn.bufferRest rest).state = conn.state := by
  unfold bufferRest
  split
  · rfl
  · rfl

theorem sendInLoop_keepsOrCloses (conn : TcpConnection) (message : Bytes) (result : WriteResult)
    (soError : Bool) : KeepsOrCloses conn (conn.sendInLoop message result soError) := by
  have same := state_writeDirectly conn message result
  unfold sendInLoop
  split
  · exact Or.inl rfl
  · generalize conn.writeDirectly message result = direct at same ⊢
    obtain ⟨written, nwrote, faultError⟩ := direct
    dsimp only
    split
    · rcases handleError_keepsOrCloses written soError with kept | closed
      · exact Or.inl (kept.trans same)
      · exact Or.inr closed
    · exact Or.inl ((state_bufferRest _ _).trans same)

theorem handleWrite_keepsOrCloses (conn : TcpConnection) (result : WriteResult)
    (soError : Bool) : KeepsOrCloses conn (conn.handleWrite result soError) := by
  unfold TcpConnection.handleWrite
  split
  · next writing =>
      cases result with
      | accepted count =>
          dsimp only
          split
          · exact Or.inl (wroteBuffered_takes writing _).state
          · exact handleError_keepsOrCloses conn soError
      | failed errno =>
          dsimp only
          split
          · exact Or.inl rfl
          · exact handleError_keepsOrCloses conn soError
  · exact Or.inl rfl

theorem runFunctor_keepsOrCloses (conn : TcpConnection) (result : WriteResult)
    (soError : Bool) (functor : LoopFunctor) :
    KeepsOrCloses conn (conn.runFunctor result soError functor) := by
  cases functor with
  | send message =>
      rw [TcpConnection.runFunctor]
      split
      · exact sendInLoop_keepsOrCloses conn message result soError
      · exact Or.inl rfl
  | shutdown => exact Or.inl (state_shutdownInLoop conn)
  | writeComplete => exact Or.inl rfl

end State

/-! ## The invariant -/

/-- What the connection callback reports if it is set. -/
def expects (hooks : Hooks) (values : List Bool) : List Bool :=
  if hooks.connection then values else []

/-- What has been reported when a state is reached. -/
def history : StateE → List Bool
  | .disconnected => [true, false]
  | _ => [true]

/-- How often the close callback may have been invoked when a state is reached. -/
def closesUpTo : StateE → Nat
  | .disconnected => 1
  | _ => 0

/-- No report of the state is to be made: the reports agree with the state, and
the close callback was invoked or is to be invoked once, if at all. -/
structure Calm (c : Lifecycle) : Prop where
  reported : connectionReports c.log = expects c.hooks (history c.conn.state)
  silent : .callback .connection ∉ c.frames
  closes : invocations c.log .close + c.frames.count (.callback .close) ≤ closesUpTo c.conn.state
  begun : c.conn.state ≠ .connecting
  asserted : c.assertFailed = false

/-- The next thing is to report the state, and then the connection is calm. -/
def Announcing (c : Lifecycle) : Prop :=
  ∃ rest, c.frames = .callback .connection :: rest ∧
    ({ c with frames := rest }.invoke .connection).Calm

/-- What a step does. -/
structure Leads (c next : Lifecycle) : Prop where
  inv : next.Calm ∨ next.Announcing
  final : c.conn.state = .disconnected → next.conn.state = .disconnected

theorem connectionReports_append (log : List (UserCallback × Bool)) (callback : UserCallback)
    (connected : Bool) : connectionReports (log ++ [(callback, connected)]) =
      connectionReports log ++ if callback = .connection then [connected] else [] := by
  cases callback with
  | connection => simp [connectionReports]
  | message | close | writeComplete => simp [connectionReports]

theorem invocations_append (log : List (UserCallback × Bool)) (callback other : UserCallback)
    (connected : Bool) : invocations (log ++ [(callback, connected)]) other =
      invocations log other + if callback = other then 1 else 0 := by
  simp [invocations, List.countP_append, List.countP_singleton]

theorem count_running (frames : List Frame) (callback : UserCallback) :
    (Frame.running :: frames).count (.callback callback) = frames.count (.callback callback) := by
  have differs : Frame.running ≠ .callback callback := nofun
  exact List.count_cons_of_ne differs

theorem count_callback (frames : List Frame) (callback other : UserCallback) :
    (Frame.callback callback :: frames).count (.callback other) =
      frames.count (.callback other) + if callback = other then 1 else 0 := by
  simp [List.count_cons]

section Steps

variable {c : Lifecycle}

theorem invoke_of_set {callback : UserCallback} (set : c.isSet callback = true) :
    c.invoke callback = { c with
      log := c.log ++ [(callback, c.conn.state == StateE.connected)]
      frames := .running :: c.frames } :=
  if_pos set

theorem invoke_of_unset {callback : UserCallback} (unset : c.isSet callback ≠ true) :
    c.invoke callback = c :=
  if_neg unset

theorem state_invoke (c : Lifecycle) (callback : UserCallback) :
    (c.invoke callback).conn.state = c.conn.state := by
  unfold invoke
  split
  · rfl
  · rfl

/-- Invoking the connection callback reports the state. -/
theorem Calm.of_report {earlier : List Bool}
    (reports : connectionReports c.log = expects c.hooks earlier)
    (grows : history c.conn.state = earlier ++ [c.conn.state == StateE.connected])
    (silent : .callback .connection ∉ c.frames)
    (closes : invocations c.log .close + c.frames.count (.callback .close) ≤
      closesUpTo c.conn.state)
    (begun : c.conn.state ≠ .connecting) (asserted : c.assertFailed = false) :
    (c.invoke .connection).Calm := by
  by_cases set : c.isSet .connection = true
  · have all : ∀ values, expects c.hooks values = values := fun _ => if_pos set
    rw [invoke_of_set set]
    refine ⟨?_, ?_, ?_, begun, asserted⟩
    · rw [all, grows, connectionReports_append, reports, all, if_pos rfl]
    · exact List.not_mem_cons_of_ne_of_not_mem nofun silent
    · dsimp only
      rw [invocations_append, if_neg nofun, count_running]
      exact closes
  · have none : ∀ values, expects c.hooks values = [] := fun _ => if_neg set
    rw [invoke_of_unset set]
    exact ⟨reports.trans ((none _).trans (none _).symm), silent, closes, begun, asserted⟩

theorem Calm.pop {frame : Frame} {rest : List Frame} (calm : c.Calm)
    (top : c.frames = frame :: rest) : { c with frames := rest }.Calm := by
  have silent := calm.silent
  have closes := calm.closes
  rw [top] at silent closes
  refine ⟨calm.reported, List.not_mem_of_not_mem_cons silent, ?_, calm.begun, calm.asserted⟩
  exact (Nat.add_le_add_left (List.count_le_count_cons ..) _).trans closes

/-- Frames that are not callbacks of the user may be pushed. -/
theorem Calm.push {frame : Frame} (calm : c.Calm) (other : frame ≠ .callback .connection)
    (another : frame ≠ .callback .close) : { c with frames := frame :: c.frames }.Calm := by
  refine ⟨calm.reported, ?_, ?_, calm.begun, calm.asserted⟩
  · exact List.not_mem_cons_of_ne_of_not_mem other.symm calm.silent
  · rw [List.count_cons_of_ne another]
    exact calm.closes

/-- Invoking another callback takes it off the stack. -/
theorem Calm.invoke {callback : UserCallback} {rest : List Frame} (calm : c.Calm)
    (top : c.frames = .callback callback :: rest) :
    ({ c with frames := rest }.invoke callback).Calm := by
  have popped := calm.pop top
  have other : callback ≠ .connection := by
    rintro rfl
    exact calm.silent (top ▸ List.mem_cons_self ..)
  by_cases set : { c with frames := rest }.isSet callback = true
  · rw [invoke_of_set set]
    refine ⟨?_, ?_, ?_, calm.begun, calm.asserted⟩
    · rw [connectionReports_append, if_neg other, List.append_nil]
      exact calm.reported
    · exact List.not_mem_cons_of_ne_of_not_mem nofun popped.silent
    · have closes := calm.closes
      rw [top, count_callback] at closes
      dsimp only
      rw [invocations_append, count_running]
      omega
  · rw [invoke_of_unset set]
    exact popped

/-- A live connection may start to disconnect. -/
theorem Calm.withConn {conn : TcpConnection} (calm : c.Calm)
    (moves : conn.state = c.conn.state ∨
      c.conn.state = .connected ∧ conn.state = .disconnecting) : { c with conn := conn }.Calm := by
  have reported := calm.reported
  have closes := calm.closes
  rcases moves with same | ⟨up, leaving⟩
  · rw [← same] at reported closes
    exact ⟨reported, calm.silent, closes, same ▸ calm.begun, calm.asserted⟩
  · rw [up] at reported closes
    refine ⟨?_, calm.silent, ?_, ?_, calm.asserted⟩
    · dsimp only
      rw [leaving]
      exact reported
    · dsimp only
      rw [leaving]
      exact closes
    · dsimp only
      rw [leaving]
      exact nofun

/-- While the connection lives, its end has not been reported. -/
theorem Calm.live (calm : c.Calm) (live : c.conn.state ≠ .disconnected) :
    connectionReports c.log = expects c.hooks [true] ∧
      invocations c.log .close + c.frames.count (.callback .close) = 0 := by
  have reported := calm.reported
  have closes := calm.closes
  generalize c.conn.state = state at live reported closes
  cases state with
  | disconnected => exact absurd rfl live
  | connecting | connected | disconnecting => exact ⟨reported, Nat.le_zero.mp closes⟩

/-- The end of the connection is reported, and the close callback may follow. -/
theorem Calm.ends {conn : TcpConnection} {assertFailed : Bool} {frames : List Frame}
    (calm : c.Calm) (live : c.conn.state ≠ .disconnected) (closed : conn.state = .disconnected)
    (asserted : assertFailed = false) (silent : .callback .connection ∉ frames)
    (once : frames.count (.callback .close) ≤ 1) :
    { c with
      assertFailed := assertFailed
      conn := conn
      frames := .callback .connection :: frames }.Announcing := by
  obtain ⟨reports, unclosed⟩ := calm.live live
  refine ⟨frames, rfl, Calm.of_report reports ?_ silent ?_ ?_ asserted⟩
  · dsimp only
    rw [closed]
    rfl
  · dsimp only
    rw [closed, closesUpTo]
    omega
  · dsimp only
    rw [closed]
    exact nofun

theorem Calm.become {conn : TcpConnection} (calm : c.Calm) (moves : KeepsOrCloses c.conn conn) :
    c.Leads (c.become conn) := by
  unfold Lifecycle.become
  split
  · next closing =>
      obtain ⟨live, closed⟩ := closing
      have asserted : (c.assertFailed ||
          !(c.conn.state == StateE.connected || c.conn.state == StateE.disconnecting)) = false := by
        have begun := calm.begun
        rw [calm.asserted]
        generalize c.conn.state = state at live begun ⊢
        cases state with
        | disconnected => exact absurd rfl live
        | connecting => exact absurd rfl begun
        | connected | disconnecting => rfl
      have unclosed := (calm.live live).2
      refine ⟨Or.inr (calm.ends live closed asserted ?_ ?_), fun already => absurd already live⟩
      · exact List.not_mem_cons_of_ne_of_not_mem nofun calm.silent
      · rw [count_callback, if_pos rfl]
        omega
  · next open_ =>
      have same : conn.state = c.conn.state := by
        rcases moves with kept | closed
        · exact kept
        · have already := Classical.byContradiction fun live => open_ ⟨live, closed⟩
          exact closed.trans already.symm
      exact ⟨Or.inl (calm.withConn (Or.inl same)), same.trans⟩

theorem Calm.leads {next : Lifecycle} (calm : next.Calm)
    (same : next.conn.state = c.conn.state) : c.Leads next :=
  ⟨Or.inl calm, same.trans⟩

/-- A step may begin with changes that leave the state alone. -/
theorem Leads.of_state {before next : Lifecycle} (leads : before.Leads next)
    (same : before.conn.state = c.conn.state) : c.Leads next :=
  ⟨leads.inv, fun closed => leads.final (same.trans closed)⟩

theorem Calm.handleClose (calm : c.Calm) : c.Leads c.handleClose :=
  calm.become (Or.inr c.conn.state_handleClose)

theorem Calm.handleError (calm : c.Calm) (soError : Bool) : c.Leads (c.handleError soError) :=
  calm.become (handleError_keepsOrCloses c.conn soError)

theorem Calm.connectDestroyed (calm : c.Calm) : c.Leads c.connectDestroyed := by
  unfold Lifecycle.connectDestroyed
  split
  · next up =>
      have live : c.conn.state ≠ .disconnected := by
        rw [up]
        exact nofun
      have unclosed := (calm.live live).2
      refine ⟨Or.inr (calm.ends live rfl calm.asserted calm.silent ?_), fun _ => rfl⟩
      omega
  · exact calm.leads rfl

theorem Calm.handleRead (calm : c.Calm) (answers : Answers) : c.Leads (c.handleRead answers) := by
  have active : { c with lastActiveTimeMs := answers.nowMs }.Calm :=
    ⟨calm.reported, calm.silent, calm.closes, calm.begun, calm.asserted⟩
  unfold Lifecycle.handleRead updateActiveTime
  cases answers.read with
  | bytes data =>
      have filled : { c with
          lastActiveTimeMs := answers.nowMs
          inputBuffer := c.inputBuffer.append data }.Calm :=
        ⟨calm.reported, calm.silent, calm.closes, calm.begun, calm.asserted⟩
      dsimp only
      split
      · split
        · have message : Frame.callback .message ≠ .callback .connection := nofun
          exact Calm.leads (filled.push message nofun) rfl
        · have dropped : { c with
              lastActiveTimeMs := answers.nowMs
              inputBuffer := (c.inputBuffer.append data).retrieveAll }.Calm :=
            ⟨calm.reported, calm.silent, calm.closes, calm.begun, calm.asserted⟩
          exact dropped.leads rfl
      · exact filled.handleClose.of_state rfl
  | failed => exact (active.handleError answers.soError).of_state rfl

theorem Calm.handleWrite (calm : c.Calm) (answers : Answers) :
    c.Leads (c.handleWrite answers) := by
  have active : { c with lastActiveTimeMs := answers.nowMs }.Calm :=
    ⟨calm.reported, calm.silent, calm.closes, calm.begun, calm.asserted⟩
  have moves := handleWrite_keepsOrCloses c.conn answers.write answers.soError
  exact (active.become moves).of_state rfl

theorem Calm.runHandler (calm : c.Calm) (answers : Answers) (handler : Channel.Callback) :
    c.Leads (c.runHandler answers handler) := by
  cases handler with
  | read => exact calm.handleRead answers
  | write => exact calm.handleWrite answers
  | close => exact calm.handleClose
  | error => exact calm.handleError answers.soError

theorem Calm.send (calm : c.Calm) (inLoop : Bool) (message : Bytes) (result : WriteResult)
    (soError : Bool) : c.Leads (c.send inLoop message result soError) := by
  unfold Lifecycle.send
  split
  · split
    · exact calm.become (sendInLoop_keepsOrCloses c.conn message result soError)
    · exact calm.leads rfl
  · have same : (c.conn.send message).state = c.conn.state := by
      unfold TcpConnection.send
      split
      · rfl
      · rfl
    exact (calm.withConn (Or.inl same)).leads same

theorem Calm.shutdown (calm : c.Calm) (inLoop : Bool) : c.Leads (c.shutdown inLoop) := by
  have leaves : ∀ {conn : TcpConnection}, c.conn.state = .connected →
      conn.state = .disconnecting → c.Leads { c with conn := conn } := by
    intro conn up leaving
    refine ⟨Or.inl (calm.withConn (Or.inr ⟨up, leaving⟩)), fun down => ?_⟩
    exact absurd (up.symm.trans down) nofun
  unfold Lifecycle.shutdown
  split
  · split
    · next up => exact leaves up (state_shutdownInLoop _)
    · exact calm.leads rfl
  · unfold TcpConnection.shutdown
    split
    · next up => exact leaves up rfl
    · exact calm.leads rfl

theorem Calm.forceClose (calm : c.Calm) (inLoop : Bool) : c.Leads (c.forceClose inLoop) := by
  unfold Lifecycle.forceClose
  split
  · next up =>
      have leaving : { c with conn := { c.conn with state := .disconnecting } }.Calm :=
        calm.withConn (Or.inr ⟨up, rfl⟩)
      have live : c.conn.state = .disconnected → False := fun down =>
        absurd (up.symm.trans down) nofun
      dsimp only
      split
      · exact ⟨leaving.handleClose.inv, fun down => (live down).elim⟩
      · refine ⟨Or.inl ?_, fun down => (live down).elim⟩
        exact ⟨leaving.reported, leaving.silent, leaving.closes, leaving.begun, leaving.asserted⟩
  · exact calm.leads rfl

theorem Calm.checkIdleTimeout (calm : c.Calm) (inLoop : Bool) (nowMs : Int) :
    c.Leads (c.checkIdleTimeout inLoop nowMs).2 := by
  unfold Lifecycle.checkIdleTimeout
  split
  · exact calm.leads rfl
  · dsimp only
    split
    · exact calm.forceClose inLoop
    · exact calm.leads rfl

theorem Calm.runFunctor {result : WriteResult} {soError : Bool} {next : Lifecycle} (calm : c.Calm)
    (taken : c.runFunctor result soError = some next) : c.Leads next := by
  unfold Lifecycle.runFunctor at taken
  cases queued : c.conn.pendingFunctors with
  | nil =>
      rw [queued] at taken
      cases taken
  | cons functor rest =>
      rw [queued] at taken
      have popped : { c with conn := { c.conn with pendingFunctors := rest } }.Calm :=
        calm.withConn (Or.inl rfl)
      have moves := runFunctor_keepsOrCloses { c.conn with pendingFunctors := rest } result soError
      cases functor with
      | send message =>
          cases taken
          exact (popped.become (moves (.send message))).of_state rfl
      | shutdown =>
          cases taken
          exact (popped.become (moves .shutdown)).of_state rfl
      | writeComplete =>
          cases taken
          have called : Frame.callback .writeComplete ≠ .callback .connection := nofun
          have invoked := (popped.push called nofun).invoke rfl
          exact Calm.leads invoked (state_invoke _ _)

theorem Calm.proceed {answers : Answers} {next : Lifecycle} (calm : c.Calm)
    (taken : c.proceed answers = some next) : c.Leads next := by
  unfold Lifecycle.proceed at taken
  split at taken
  · next handler rest top =>
      cases taken
      exact ((calm.pop top).runHandler answers handler).of_state rfl
  · next callback rest top =>
      cases taken
      exact Calm.leads (calm.invoke top) (state_invoke _ _)
  · cases taken

theorem Calm.callbackReturns {next : Lifecycle} (calm : c.Calm)
    (taken : c.callbackReturns = some next) : c.Leads next := by
  unfold Lifecycle.callbackReturns at taken
  split at taken
  · next rest top =>
      cases taken
      exact Calm.leads (calm.pop top) rfl
  · cases taken

theorem Calm.step {event : Event} {next : Lifecycle} (calm : c.Calm)
    (taken : c.step event = some next) : c.Leads next := by
  have called : ∀ {after : Lifecycle}, c.Leads after → c.call after = some next →
      c.Leads next := by
    intro after leads calls
    obtain ⟨_, same⟩ := Option.ite_none_right_eq_some.mp calls
    cases same
    exact leads
  cases event with
  | handleEvent revents =>
      obtain ⟨idle, moved⟩ := Option.ite_none_right_eq_some.mp taken
      cases moved
      have closes := calm.closes
      refine Calm.leads ⟨calm.reported, ?_, ?_, calm.begun, calm.asserted⟩ rfl
      · simp
      · have none : ((Channel.handleEvent revents).map Frame.handler).count (.callback .close) = 0 :=
          List.count_eq_zero.mpr (by simp)
        dsimp only
        omega
  | functor result soError =>
      obtain ⟨_, moved⟩ := Option.ite_none_right_eq_some.mp taken
      exact calm.runFunctor moved
  | forcedClose =>
      obtain ⟨_, moved⟩ := Option.ite_none_right_eq_some.mp taken
      cases moved
      have popped : { c with forcedCloses := c.forcedCloses - 1 }.Calm :=
        ⟨calm.reported, calm.silent, calm.closes, calm.begun, calm.asserted⟩
      exact popped.handleClose.of_state rfl
  | connectDestroyed => exact called calm.connectDestroyed taken
  | send inLoop message result soError =>
      exact called (calm.send inLoop message result soError) taken
  | shutdown inLoop => exact called (calm.shutdown inLoop) taken
  | forceClose inLoop => exact called (calm.forceClose inLoop) taken
  | setIdleTimeout seconds nowMs =>
      have set : (c.setIdleTimeout seconds nowMs).Calm :=
        ⟨calm.reported, calm.silent, calm.closes, calm.begun, calm.asserted⟩
      exact called (set.leads rfl) taken
  | checkIdleTimeout inLoop nowMs => exact called (calm.checkIdleTimeout inLoop nowMs) taken
  | retrieve count =>
      have taken_off : { c with inputBuffer := c.inputBuffer.retrieve count }.Calm :=
        ⟨calm.reported, calm.silent, calm.closes, calm.begun, calm.asserted⟩
      exact called (taken_off.leads rfl) taken
  | proceed answers => exact calm.proceed taken
  | callbackReturns => exact calm.callbackReturns taken

/-- A connection that has to report its state can do nothing else. -/
theorem Announcing.step {event : Event} {next : Lifecycle} (announcing : c.Announcing)
    (taken : c.step event = some next) : c.Leads next := by
  obtain ⟨rest, top, calm⟩ := announcing
  have busy : ∀ {after : Lifecycle}, c.call after ≠ some next := by
    intro after calls
    obtain ⟨free, _⟩ := Option.ite_none_right_eq_some.mp calls
    rw [top] at free
    cases free
  have occupied : c.frames ≠ [] := by
    rw [top]
    exact nofun
  cases event with
  | handleEvent revents => exact absurd (Option.ite_none_right_eq_some.mp taken).1 occupied
  | functor result soError => exact absurd (Option.ite_none_right_eq_some.mp taken).1 occupied
  | forcedClose => exact absurd (Option.ite_none_right_eq_some.mp taken).1.1 occupied
  | connectDestroyed | shutdown _ | forceClose _ | retrieve _ => exact absurd taken busy
  | send _ _ _ _ | setIdleTimeout _ _ | checkIdleTimeout _ _ => exact absurd taken busy
  | proceed answers =>
      unfold Lifecycle.step Lifecycle.proceed at taken
      rw [top] at taken
      cases taken
      exact Calm.leads calm (state_invoke _ _)
  | callbackReturns =>
      unfold Lifecycle.step Lifecycle.callbackReturns at taken
      rw [top] at taken
      cases taken

theorem Calm.orderly (calm : c.Calm) : c.Orderly := by
  have reports : history c.conn.state <+: [true, false] := by
    cases c.conn.state with
    | disconnected => exact List.prefix_rfl
    | connecting | connected | disconnecting => exact ⟨[false], rfl⟩
  have once : closesUpTo c.conn.state ≤ 1 := by
    cases c.conn.state with
    | disconnected => exact Nat.le_refl 1
    | connecting | connected | disconnecting => exact Nat.zero_le 1
  refine ⟨?_, ((Nat.le_add_right _ _).trans calm.closes).trans once, calm.asserted⟩
  rw [calm.reported, expects]
  split
  · exact reports
  · exact List.nil_prefix

/-- A report that is to be made comes behind those that were made. -/
theorem Announcing.orderly (announcing : c.Announcing) : c.Orderly := by
  obtain ⟨rest, _, calm⟩ := announcing
  have after := calm.orderly
  by_cases set : { c with frames := rest }.isSet .connection = true
  · rw [invoke_of_set set] at after
    have longer : c.log <+: c.log ++ [(.connection, c.conn.state == StateE.connected)] :=
      List.prefix_append ..
    exact ⟨((longer.filter _).map _).trans after.reported,
      longer.sublist.countP_le.trans after.closes, after.asserted⟩
  · rw [invoke_of_unset set] at after
    exact ⟨after.reported, after.closes, after.asserted⟩

end Steps

/-- Establishing the connection is to be reported. -/
theorem established_announcing (hooks : Hooks) (writeCompleteCallback : Bool) (nowMs : Int) :
    (established hooks writeCompleteCallback nowMs).Announcing := by
  have unreported : connectionReports [] = expects hooks [] := by
    unfold expects
    split
    · rfl
    · rfl
  exact ⟨[], rfl, Calm.of_report unreported rfl nofun (Nat.le_refl 0) nofun rfl⟩

/--
The life of a connection: wherever it has come from `connectEstablished`, the
connection callback was invoked with `connected()` true, then false, and not
again, the close callback was invoked once at most, the assertions of
`connectEstablished` and `handleClose` have held, and `kDisconnected` is never
left.
-/
theorem lifecycle_orderly {hooks : Hooks} {writeCompleteCallback : Bool} {nowMs : Int}
    {events later : List Event} {c final : Lifecycle}
    (reached : run? step (established hooks writeCompleteCallback nowMs) events = some c)
    (continued : run? step c later = some final) :
    c.Orderly ∧ (c.conn.state = .disconnected → final.conn.state = .disconnected) := by
  have leads : ∀ (d : Lifecycle) event next, d.Calm ∨ d.Announcing → d.step event = some next →
      d.Leads next := by
    intro d event next inv taken
    rcases inv with calm | announcing
    · exact calm.step taken
    · exact announcing.step taken
  have inv := run?_invariant (fun d event next before taken => (leads d event next before taken).inv)
    (Or.inr (established_announcing hooks writeCompleteCallback nowMs)) reached
  constructor
  · rcases inv with calm | announcing
    · exact calm.orderly
    · exact announcing.orderly
  · intro closed
    have kept : ∀ (d : Lifecycle) event next,
        (d.Calm ∨ d.Announcing) ∧ d.conn.state = .disconnected → d.step event = some next →
        (next.Calm ∨ next.Announcing) ∧ next.conn.state = .disconnected := by
      intro d event next before taken
      have led := leads d event next before.1 taken
      exact ⟨led.inv, led.final before.2⟩
    exact (run?_invariant kept ⟨inv, closed⟩ continued).2

/-- A byte is there, and the socket has an error. -/
def brokenSocket : Answers := ⟨.bytes [1], .failed .pipe, true, 0⟩

/-- The message callback sends to a broken socket, which closes the connection
within the event; the connection callback closes it again, and the rest of the
event does so twice. -/
def brokenReply : List Event :=
  [.proceed brokenSocket, .callbackReturns, .handleEvent ⟨false, false, true, false, true, true⟩,
    .proceed brokenSocket, .proceed brokenSocket, .send true [2] (.failed .pipe) true,
    .proceed brokenSocket, .forceClose true, .callbackReturns, .proceed brokenSocket,
    .connectDestroyed, .callbackReturns, .callbackReturns,
    .proceed { brokenSocket with read := .failed }, .proceed brokenSocket, .proceed brokenSocket]

theorem lifecycle_orderly_brokenReply :
    ∃ final, run? step (established ⟨true, true, true⟩ true 0) brokenReply = some final ∧
      final.frames = [] ∧
      final.log = [(.connection, true), (.message, true), (.connection, false), (.close, false)] ∧
      final.Orderly := by
  obtain ⟨final, reached, frames, log⟩ : ∃ final,
      run? step (established ⟨true, true, true⟩ true 0) brokenReply = some final ∧
        final.frames = [] ∧ final.log =
          [(.connection, true), (.message, true), (.connection, false), (.close, false)] :=
    ⟨_, rfl, rfl, rfl⟩
  have ended : run? step final [] = some final := rfl
  exact ⟨final, reached, frames, log, (lifecycle_orderly reached ended).1⟩

end Lifecycle

end RpcFramework
