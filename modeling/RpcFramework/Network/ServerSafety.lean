import RpcFramework.Network.ServerActs
import RpcFramework.Network.ServerLives

/-!
# What no interleaving of the loops can break

The assertions of the functions never fail, a connection is established once and
before everything else, it leaves the table only when it is closed, and it is
destroyed at most once and only out of the table.

Two things can go wrong.  `shutdown` reads the state of the connection and stores the
new one in two steps, so a call from another thread can store `kDisconnecting` over
`kDisconnected`.  As long as no call comes too late in this way, the functions of a
connection run in the order of its life, and only a connection in the table is
registered at its loop.  And an exception of the connection callback in `handleClose`
skips `closeCallback_`.  As long as none does, a connection that is closed leaves the
table and is destroyed; one that an exception was thrown for stays in the table.
-/

namespace RpcFramework

open TcpConnection StepRun Relation

namespace PolledChannel

variable {channel : PolledChannel}

theorem update_enableReading : channel.update .enableReading =
    ⟨channel.fd, ⟨true, channel.events.isWriting⟩, .added⟩ := by
  unfold update
  split
  · rfl
  · rfl

theorem update_enableWriting : channel.update .enableWriting =
    ⟨channel.fd, ⟨channel.events.isReading, true⟩, .added⟩ := by
  unfold update
  split
  · simp [Channel.Change.apply, Channel.enableWriting, Channel.isNoneEvent]
  · rfl

/-- A channel that is registered for reading stays so. -/
theorem update_disableWriting (reading : channel.events.isReading = true) :
    channel.update .disableWriting = ⟨channel.fd, ⟨true, false⟩, .added⟩ := by
  unfold update
  split
  · simp [Channel.Change.apply, Channel.disableWriting, Channel.isNoneEvent, reading]
  · simp [Channel.Change.apply, Channel.disableWriting, reading]

theorem update_disableAll (added : channel.index = .added) :
    channel.update .disableAll = ⟨channel.fd, ⟨false, false⟩, .deleted⟩ := by
  unfold update
  rw [added]
  rfl

end PolledChannel

namespace ConnectionLife

/-- What holds in every life, also in one with a late call of `shutdown` or an exception. -/
structure Inv (life : ConnectionLife) : Prop where
  fresh : life.state = .connecting → life.calls = [] ∧ life.pending .establish = 1 ∧
    life.pending .busy = 0 ∧ life.late = 0 ∧ life.channel.index = .unregistered ∧
    life.channel.events.isWriting = false
  begun : life.state ≠ .connecting → life.pending .establish = 0 ∧
    life.calls.head? = some .established ∧ life.calls.count .established = 1
  opened : life.state = .connected → .closed ∉ life.calls
  shut : life.state = .disconnected → .closed ∈ life.calls
  asks : life.pending .close + (!life.listed).toNat ≤ life.calls.count .closed
  once : life.listed.toNat + life.pending .destroy + life.calls.count .destroyed = 1

theorem count_append_of_ne {call other : LifeCall} (differs : other ≠ call)
    (calls : List LifeCall) : (calls ++ [other]).count call = calls.count call := by
  rw [List.count_append, List.count_singleton, if_neg (by simpa using differs), Nat.add_zero]

theorem count_append_self (call : LifeCall) (calls : List LifeCall) :
    (calls ++ [call]).count call = calls.count call + 1 := by
  rw [List.count_append, List.count_singleton_self]

section Inv

variable {life next : ConnectionLife} {Allowed : StateE → Prop} {Skips : Prop}

theorem Inv.connecting_of_establish (inv : life.Inv) (some_left : 0 < life.pending .establish) :
    life.state = .connecting := by
  by_contra later
  rw [(inv.begun later).1] at some_left
  cases some_left

theorem Inv.begun_of_busy (inv : life.Inv) (some_left : 0 < life.pending .busy) :
    life.state ≠ .connecting := by
  intro connecting
  rw [(inv.fresh connecting).2.2.1] at some_left
  cases some_left

theorem Inv.kept (inv : life.Inv) (never : .closed ∉ life.calls) :
    life.listed = true ∧ life.pending .close = 0 := by
  have asks := inv.asks
  rw [List.count_eq_zero.mpr never] at asks
  cases listed : life.listed with
  | true => exact ⟨rfl, by omega⟩
  | false =>
      rw [listed] at asks
      exact absurd asks (Nat.not_succ_le_zero _)

theorem Inv.unlisted_of_destroy (inv : life.Inv) (some_left : 0 < life.pending .destroy) :
    life.listed = false := by
  have once := inv.once
  cases listed : life.listed with
  | false => rfl
  | true =>
      rw [listed, Bool.toNat_true] at once
      omega

theorem Inv.closed_of_destroy (inv : life.Inv) (some_left : 0 < life.pending .destroy) :
    .closed ∈ life.calls := by
  by_contra never
  have listed := (inv.kept never).1
  rw [inv.unlisted_of_destroy some_left] at listed
  cases listed

theorem Inv.state_of_closed (inv : life.Inv) (closed : .closed ∈ life.calls) :
    life.state ≠ .connecting ∧ life.state ≠ .connected := by
  constructor
  · intro connecting
    rw [(inv.fresh connecting).1] at closed
    cases closed
  · exact fun connected => inv.opened connected closed

/-- What is behind a function in the list of those that have run. -/
theorem Inv.begun_append (inv : life.Inv) (later : life.state ≠ .connecting) {call : LifeCall}
    (other : call ≠ .established) :
    (life.calls ++ [call]).head? = some .established ∧
      (life.calls ++ [call]).count .established = 1 := by
  obtain ⟨_, first, once⟩ := inv.begun later
  constructor
  · rw [List.head?_append, first, Option.some_or]
  · rw [count_append_of_ne other, once]

/-- The server may be asked once less. -/
theorem Inv.of_gain_close (inv : (life.gain .close).Inv) : life.Inv := by
  have asks : life.pending .close + 1 + (!life.listed).toNat ≤ life.calls.count .closed := inv.asks
  refine { inv with asks := ?_ }
  omega

theorem Inv.disconnecting (inv : life.Inv) (later : life.state ≠ .connecting) (late : Nat) :
    { life with state := .disconnecting, late := late }.Inv :=
  { inv with
    fresh := fun connecting => StateE.noConfusion connecting
    begun := fun _ => inv.begun later
    opened := fun impossible => StateE.noConfusion impossible
    shut := fun impossible => StateE.noConfusion impossible }

/-- Every move keeps the invariant.  A task that is popped was pending, so the invariant
before the move says in which part of its life the connection is. -/
theorem Inv.move (inv : life.Inv) (move : Move Allowed Skips life next) : next.Inv := by
  cases move with
  | begin life established =>
      exact { inv with fresh := fun connecting => absurd connecting established }
  | finish =>
      have later := inv.begun_of_busy (Nat.succ_pos _)
      exact { inv with fresh := fun connecting => absurd connecting later }
  | enableWriting life connected =>
      exact { inv with fresh := fun connecting => by cases connected.symm.trans connecting }
  | disableWriting life writing =>
      refine { inv with fresh := fun connecting => ?_ }
      cases writing.symm.trans (inv.fresh connecting).2.2.2.2.2
  | establish life =>
      obtain ⟨empty, one, _⟩ := inv.fresh (inv.connecting_of_establish (Nat.succ_pos _))
      have empty : life.calls = [] := empty
      have none_left : life.pending .establish = 0 := Nat.succ.inj one
      refine ⟨fun connecting => StateE.noConfusion connecting, ?_, ?_,
        fun disconnected => StateE.noConfusion disconnected, ?_, ?_⟩
      · simp [empty, none_left]
      · simp [empty]
      · exact inv.asks.trans_eq (count_append_of_ne (by decide) life.calls).symm
      · exact (congrArg _ (count_append_of_ne (by decide) life.calls)).trans inv.once
  | disconnect life connected =>
      have later : life.state ≠ .connecting := by simp [connected]
      exact inv.disconnecting later _
  | reads life connected =>
      exact { inv with fresh := fun connecting => by cases connected.symm.trans connecting }
  | stores life allowed =>
      -- a connection that has not been established was not found connected
      have later : life.state ≠ .connecting := by
        intro connecting
        cases (inv.fresh connecting).2.2.2.1
      exact inv.disconnecting later _
  | close life opened =>
      have later := inv.begun_of_busy (Nat.succ_pos _)
      have asks : life.pending .close + (!life.listed).toNat ≤ life.calls.count .closed := inv.asks
      refine ⟨fun connecting => StateE.noConfusion connecting,
        fun _ => ⟨(inv.begun later).1, inv.begun_append later (by decide)⟩,
        fun impossible => StateE.noConfusion impossible, fun _ => by simp [gain], ?_, ?_⟩
      · have asked := count_append_self .closed life.calls
        change life.pending .close + 1 + (!life.listed).toNat ≤ _
        exact le_of_le_of_eq (by omega) asked.symm
      · exact (congrArg _ (count_append_of_ne (by decide) life.calls)).trans inv.once
  | unlist life listed =>
      have asks : life.pending .close + 1 + (!life.listed).toNat ≤ life.calls.count .closed :=
        inv.asks
      have once : life.listed.toNat + life.pending .destroy + life.calls.count .destroyed = 1 :=
        inv.once
      rw [listed] at asks once
      refine { inv with asks := ?_, once := ?_ }
      · exact asks
      · change 0 + (life.pending .destroy + 1) + life.calls.count .destroyed = 1
        rw [Bool.toNat_true] at once
        omega
  | ignore life unlisted => exact inv.of_gain_close
  | skip life skips => exact inv.of_gain_close
  | destroy life ended =>
      have closed := inv.closed_of_destroy (Nat.succ_pos _)
      have later := (inv.state_of_closed closed).1
      have once : life.listed.toNat + (life.pending .destroy + 1) +
        life.calls.count .destroyed = 1 := inv.once
      refine ⟨fun connecting => absurd connecting later,
        fun _ => ⟨(inv.begun later).1, inv.begun_append later (by decide)⟩,
        fun connected => absurd connected ended,
        fun disconnected => List.mem_append_left _ (inv.shut disconnected), ?_, ?_⟩
      · exact inv.asks.trans_eq (count_append_of_ne (by decide) life.calls).symm
      · refine (congrArg _ (count_append_self .destroyed life.calls)).trans ?_
        change life.listed.toNat + life.pending .destroy + (life.calls.count .destroyed + 1) = 1
        omega
  | destroyConnected life connected =>
      exact absurd connected (inv.state_of_closed (inv.closed_of_destroy (Nat.succ_pos _))).2
  | remove life =>
      refine { inv with fresh := fun connecting => ?_ }
      obtain ⟨empty, one, idle, late, _, silent⟩ := inv.fresh connecting
      exact ⟨empty, one, idle, late, rfl, silent⟩

end Inv

/-- A closed connection in the table has asked the server to take it out. -/
def Told (life : ConnectionLife) : Prop :=
  life.listed = true → .closed ∈ life.calls → 0 < life.pending .close

/-- What also holds as long as no call of `shutdown` stores its state too late. -/
structure Calm (life : ConnectionLife) : Prop where
  opened : life.state ≠ .connecting → life.state ≠ .disconnected →
    life.calls = [.established] ∧ life.channel.index = .added ∧
      life.channel.events.isReading = true
  shut : life.state = .disconnected →
    (life.calls = [.established, .closed] ∨ life.calls = [.established, .closed, .destroyed]) ∧
      life.channel.index ≠ .added ∧ life.channel.events.isWriting = false
  removing : 0 < life.pending .remove → .destroyed ∈ life.calls

section Calm

variable {life next : ConnectionLife} {Skips : Prop}

/-- A connection that is closed stays so. -/
theorem Calm.disconnected_of_closed (inv : life.Inv) (calm : life.Calm)
    (closed : .closed ∈ life.calls) : life.state = .disconnected := by
  by_contra still
  rw [(calm.opened (inv.state_of_closed closed).1 still).1] at closed
  simp at closed

theorem Calm.disconnected_of_destroyed (inv : life.Inv) (calm : life.Calm)
    (destroyed : .destroyed ∈ life.calls) : life.state = .disconnected := by
  by_contra still
  by_cases connecting : life.state = .connecting
  · rw [(inv.fresh connecting).1] at destroyed
    cases destroyed
  · rw [(calm.opened connecting still).1] at destroyed
    simp at destroyed

/-- A channel waits to be written only while its connection is open. -/
theorem Calm.opened_of_writing (inv : life.Inv) (calm : life.Calm)
    (writing : life.channel.events.isWriting = true) :
    life.state ≠ .connecting ∧ life.state ≠ .disconnected := by
  constructor
  · intro connecting
    rw [(inv.fresh connecting).2.2.2.2.2] at writing
    cases writing
  · intro disconnected
    rw [(calm.shut disconnected).2.2] at writing
    cases writing

theorem Calm.not_removing (calm : life.Calm) (never : .destroyed ∉ life.calls) :
    life.pending .remove = 0 :=
  Nat.eq_zero_of_not_pos fun pending => never (calm.removing pending)

/-- A connection that is open: only `connectEstablished` has run, and the channel is
registered. -/
theorem calm_of_open (still : life.state ≠ .disconnected) (calls : life.calls = [.established])
    (added : life.channel.index = .added) (reading : life.channel.events.isReading = true)
    (kept : life.pending .remove = 0) : life.Calm where
  opened _ _ := ⟨calls, added, reading⟩
  shut disconnected := absurd disconnected still
  removing pending := absurd kept (Nat.ne_of_gt pending)

theorem Calm.move (inv : life.Inv) (calm : life.Calm)
    (move : Move (· ≠ .disconnected) Skips life next) : next.Calm := by
  have never : life.calls = [.established] → .destroyed ∉ life.calls := by
    intro calls destroyed
    rw [calls] at destroyed
    simp at destroyed
  cases move with
  | begin | finish | unlist | ignore | skip | reads => exact { calm with }
  | enableWriting life connected =>
      obtain ⟨calls, added, reading⟩ := calm.opened (by simp [connected]) (by simp [connected])
      refine calm_of_open (by simp [connected]) calls ?_ ?_ (calm.not_removing (never calls))
      · rw [PolledChannel.update_enableWriting]
      · rw [PolledChannel.update_enableWriting]
        exact reading
  | disableWriting life writing =>
      obtain ⟨begun, still⟩ := calm.opened_of_writing inv writing
      obtain ⟨calls, added, reading⟩ := calm.opened begun still
      refine calm_of_open still calls ?_ ?_ (calm.not_removing (never calls))
      · rw [PolledChannel.update_disableWriting reading]
      · rw [PolledChannel.update_disableWriting reading]
  | establish life =>
      have empty : life.calls = [] :=
        (inv.fresh (inv.connecting_of_establish (Nat.succ_pos _))).1
      refine calm_of_open StateE.noConfusion ?_ ?_ ?_ (calm.not_removing ?_)
      · rw [empty, List.nil_append]
      · rw [PolledChannel.update_enableReading]
      · rw [PolledChannel.update_enableReading]
      · change LifeCall.destroyed ∉ life.calls
        rw [empty]
        exact List.not_mem_nil
  | disconnect life connected =>
      obtain ⟨calls, added, reading⟩ := calm.opened (by simp [connected]) (by simp [connected])
      exact calm_of_open StateE.noConfusion calls added reading (calm.not_removing (never calls))
  | stores life allowed =>
      have begun : life.state ≠ .connecting := by
        intro connecting
        cases (inv.fresh connecting).2.2.2.1
      obtain ⟨calls, added, reading⟩ := calm.opened begun allowed
      exact calm_of_open StateE.noConfusion calls added reading (calm.not_removing (never calls))
  | close life opened =>
      obtain ⟨calls, added, _⟩ := calm.opened (inv.begun_of_busy (Nat.succ_pos _)) opened
      have calls : life.calls = [.established] := calls
      have channel : life.channel.update .disableAll = _ := PolledChannel.update_disableAll added
      have now : life.calls ++ [.closed] = [.established, .closed] := by
        rw [calls]
        rfl
      refine ⟨fun _ still => absurd rfl still, fun _ => ⟨Or.inl now, ?_, ?_⟩, ?_⟩
      · change (life.channel.update .disableAll).index ≠ _
        rw [channel]
        exact Channel.Index.noConfusion
      · change (life.channel.update .disableAll).events.isWriting = _
        rw [channel]
      · exact fun pending => absurd (calm.not_removing (never calls)) (Nat.ne_of_gt pending)
  | destroy life ended =>
      have disconnected := calm.disconnected_of_closed inv (inv.closed_of_destroy (Nat.succ_pos _))
      obtain ⟨calls, unregistered, silent⟩ := calm.shut disconnected
      have once : life.listed.toNat + (life.pending .destroy + 1) +
        life.calls.count .destroyed = 1 := inv.once
      have first : life.calls = [.established, .closed] := by
        refine calls.resolve_right fun again => ?_
        have counted : life.calls.count .destroyed = 1 := by
          rw [show life.calls = _ from again]
          rfl
        omega
      have now : life.calls ++ [.destroyed] = [.established, .closed, .destroyed] := by
        rw [first]
        rfl
      exact ⟨fun _ still => absurd disconnected still, fun _ => ⟨Or.inr now, unregistered, silent⟩,
        fun _ => List.mem_append_right _ (List.mem_singleton_self _)⟩
  | destroyConnected life connected =>
      exact absurd connected (inv.state_of_closed (inv.closed_of_destroy (Nat.succ_pos _))).2
  | remove life =>
      have destroyed := calm.removing (Nat.succ_pos _)
      have disconnected := calm.disconnected_of_destroyed inv destroyed
      obtain ⟨calls, _, silent⟩ := calm.shut disconnected
      exact ⟨fun _ still => absurd disconnected still,
        fun _ => ⟨calls, Channel.Index.noConfusion, silent⟩, fun _ => destroyed⟩

end Calm

section Told

variable {life next : ConnectionLife} {Allowed : StateE → Prop} {Skips : Prop}

/-- A connection that closes tells the server so, unless an exception keeps it from that. -/
theorem Told.move (told : life.Told) (move : Move Allowed False life next) : next.Told := by
  have earlier : ∀ {calls : List LifeCall} {call : LifeCall}, call ≠ .closed →
      .closed ∈ calls ++ [call] → .closed ∈ calls := by
    intro calls call other member
    rcases List.mem_append.mp member with before | last
    · exact before
    · exact absurd (List.mem_singleton.mp last).symm other
  cases move with
  | begin | finish | enableWriting | disableWriting | disconnect | reads | stores | remove =>
      exact told
  | establish life => exact fun listed closed => told listed (earlier (by decide) closed)
  | close life opened => exact fun _ _ => Nat.succ_pos _
  | unlist life listed => exact fun still => Bool.noConfusion still
  | ignore life unlisted => exact fun still => by cases unlisted.symm.trans still
  | skip life skips => exact skips.elim
  | destroy life ended => exact fun listed closed => told listed (earlier (by decide) closed)
  | destroyConnected life connected =>
      exact fun listed closed => told listed (earlier (by decide) closed)

end Told

end ConnectionLife

namespace TcpServer

open ConnectionLife

/-! ## The runs of a server -/

section Runs

variable {s next : TcpServer} {c : ConnId} {loop : ServerLoop} {event : Event}

/-- Nothing is pending for a connection that has not been made. -/
theorem Placed.pending_of_not_made (placed : s.Placed) (unmade : ¬ s.Made c) (kind : LifeKind) :
    (s.life c).pending kind = 0 := by
  by_contra some_left
  obtain ⟨loop, _, task, member, own⟩ := Workers.exists_of_pending (Nat.pos_of_ne_zero some_left)
  exact unmade ((placed.fits loop task member).owner c kind (of_decide_eq_true own))

/-- The life of a connection that has just been accepted. -/
def newborn (sockfd : Nat) : ConnectionLife :=
  gain ⟨.connecting, ⟨sockfd, ⟨false, false⟩, .unregistered⟩, [], true, 0, fun _ => 0⟩ .establish

theorem inv_newborn (sockfd : Nat) : (newborn sockfd).Inv := by
  constructor <;> simp [newborn, gain]

theorem calm_newborn (sockfd : Nat) : (newborn sockfd).Calm := by
  constructor <;> simp [newborn, gain]

theorem told_newborn (sockfd : Nat) : (newborn sockfd).Told := fun _ closed => by cases closed

theorem Placed.life_newConnection (placed : s.Placed) (sockfd : Nat) (nowMs : Int) :
    (s.newConnection sockfd nowMs).life s.nextConnId = newborn sockfd := by
  have unmade : ¬ s.Made s.nextConnId := fun made => Nat.lt_irrefl _ made.2
  rw [TcpServer.newConnection, life_runInLoop (placed.getNextLoop_mem sockfd nowMs),
    task_self rfl, newborn]
  congr 1
  have conn : (s.addConnection sockfd nowMs).conns s.nextConnId =
      ⟨s.threadPool.getNextLoop.1, .connecting, ⟨sockfd, ⟨false, false⟩, .unregistered⟩, nowMs,
        []⟩ := Function.update_self ..
  have loops := placed.loops_addConnection sockfd nowMs
  have listed : (connName s.name s.nextConnId, s.nextConnId) ∈
      (s.addConnection sockfd nowMs).connections.entries := SortedMap.mem_insert.mpr (Or.inl rfl)
  have late : s.shutdowns.count s.nextConnId = 0 :=
    List.count_eq_zero.mpr fun member => unmade (placed.late _ member)
  unfold life pendingOf
  rw [conn, loops, ConnectionLife.mk.injEq]
  refine ⟨rfl, rfl, rfl, decide_eq_true listed, late, ?_⟩
  funext kind
  exact placed.pending_of_not_made unmade kind

/-- The tasks are on their loops, every connection is in a part of its life, and no
assertion has failed. -/
structure Sound (s : TcpServer) : Prop where
  placed : s.Placed
  lives : ∀ c, s.Made c → (s.life c).Inv
  unaborted : s.aborted = false

/-- A task that is pending tells in which part of its life its connection is. -/
theorem Sound.life_of_mem (sound : s.Sound) {task : LoopTask} (found : task ∈ (s.work loop).tasks)
    {kind : LifeKind} (own : task.kind = some (c, kind)) :
    (s.life c).Inv ∧ 0 < (s.life c).pending kind := by
  have fits := sound.placed.fits loop task found
  exact ⟨sound.lives c (fits.owner c kind own), pending_of_mem fits.member found own⟩

/-- Every task that is pending is ready. -/
theorem Sound.ready (sound : s.Sound) {task : LoopTask} (found : task ∈ (s.work loop).tasks) :
    s.Ready task := by
  cases task with
  | connectEstablished c =>
      have own := sound.life_of_mem found rfl
      exact own.1.connecting_of_establish own.2
  | handleClose c =>
      have own := sound.life_of_mem found rfl
      exact own.1.begun_of_busy own.2
  | connectDestroyed c =>
      have own := sound.life_of_mem found rfl
      exact (own.1.state_of_closed (own.1.closed_of_destroy own.2)).2
  | _ => trivial

/-- What a loop does when it takes a task off its stack. -/
theorem Sound.acts (sound : s.Sound) {task : LoopTask} {work : Workers ServerLoop LoopTask}
    (popped : s.work.pop loop = some (task, work)) (nowMs : Int) (outcome : SocketOutcome) :
    ∃ new, Acts loop new { s with work := work }
      ({ s with work := work }.run loop nowMs outcome task) := by
  have top := (Workers.mem_pop popped).1
  have fits := (SameFrame.refl.working work).fits (sound.placed.fits loop task top)
  obtain ⟨new, acts⟩ := (does_perform nowMs outcome task).acts (sound.placed.pop popped) fits
    (sound.ready top)
  exact ⟨new, acts.require (by rw [fits.home, beq_self_eq_true])⟩

/-- The tasks stay in their places, and no assertion fails. -/
theorem Sound.placed_step (sound : s.Sound) (taken : s.step event = some next) :
    next.Placed ∧ next.aborted = false := by
  have placed := sound.placed
  have unaborted := sound.unaborted
  have called : ∀ {c}, event.Calls c → next.Placed ∧ next.aborted = false := by
    intro c calls
    obtain ⟨_, new, acts, callable⟩ := placed.acts_call calls taken
    have same : SameFrame next s := by
      refine sameFrame_step ?_ taken
      rintro sockfd nowMs rfl
      exact calls.elim
    exact ⟨placed.acts (fun some_more => placed.waits_of_callable (callable some_more)) same acts,
      acts.aborted.trans unaborted⟩
  cases steps_of_step taken with
  | accept few polls => exact ⟨placed.newConnection few polls _ _, unaborted⟩
  | @epollWait loop active polled idle =>
      refine ⟨placed.acts ?_ (SameFrame.refl.pushed _) (Acts.refl.push ?_ ?_), unaborted⟩
      · rw [idle]
        exact fun _ => List.forall_mem_nil _
      · intro task member
        obtain ⟨entry, listed, rfl⟩ := List.mem_map.mp member
        obtain ⟨made, rfl, _⟩ := polled entry listed
        exact placed.own made rfl rfl
      · intro task member
        rw [List.append_nil] at member
        obtain ⟨entry, _, rfl⟩ := List.mem_map.mp (List.mem_of_mem_tail member)
        trivial
  | start started => exact ⟨placed.start started, unaborted⟩
  | @proceed loop nowMs outcome task work popped =>
      obtain ⟨new, acts⟩ := sound.acts popped nowMs outcome
      have same := (@does_perform { s with work := work } loop nowMs outcome task).sameFrame
      exact ⟨(placed.pop popped).acts (fun _ => (placed.waits_of_pop popped).1)
        (same.required _) acts,
        acts.aborted.trans unaborted⟩
  | callbackReturns popped => exact ⟨placed.pop popped, unaborted⟩
  | callbackThrows popped => exact ⟨(placed.pop popped).unwind _, unaborted⟩
  | send | shutdown | forceClose => exact called rfl
  | shutdownReads made _ =>
      exact ⟨placed.setShutdowns (List.forall_mem_cons.mpr ⟨made, placed.late⟩), unaborted⟩
  | @shutdownStores c late =>
      have erased : (s.setShutdowns (s.shutdowns.erase c)).Placed :=
        placed.setShutdowns fun d member => placed.late d (List.mem_of_mem_erase member)
      refine ⟨erased.acts (fun some_more => absurd rfl some_more) (.queued (.modified .refl ?_) _)
        (@acts_storeDisconnecting s c .base placed late), unaborted⟩
      exact fun _ => rfl
  | checkNothing _ => exact ⟨placed, unaborted⟩
  | checkIdle idle _ =>
      refine ⟨placed.acts ?_ (SameFrame.refl.pushed _)
        (Acts.refl.call (fits_idle rfl rfl) (List.forall_mem_nil _)), unaborted⟩
      rw [idle]
      exact fun _ => List.forall_mem_nil _

theorem Sound.moves (sound : s.Sound) (made : s.Made c) {Allowed : StateE → Prop} {Skips : Prop}
    (allowed : ∀ d, event = .shutdownStores d → Allowed (s.conns d).state)
    (skips : ∀ loop, event = .callbackThrows loop → .closeCallback c ∈ s.unwound loop → Skips)
    (taken : s.step event = some next) :
    ReflTransGen (Move Allowed Skips) (s.life c) (next.life c) := by
  refine moves_step sound.placed made ?_ ?_ allowed skips taken
  · exact fun d madeAlso busy => (sound.lives d madeAlso).begun_of_busy busy
  · intro d madeAlso added connecting
    have unregistered := ((sound.lives d madeAlso).fresh connecting).2.2.2.2.1
    cases added.symm.trans unregistered

/-- A connection that there is after a step was there before, or is a new one. -/
theorem Sound.made_before (sound : s.Sound) (taken : s.step event = some next)
    (made : next.Made c) : s.Made c ∨ ∃ sockfd, next.life c = newborn sockfd := by
  rcases newConnection_or_sameFrame taken with ⟨sockfd, nowMs, rfl⟩ | same
  · by_cases newest : c = s.nextConnId
    · subst newest
      exact Or.inr ⟨sockfd, sound.placed.life_newConnection sockfd nowMs⟩
    · have below : c < s.nextConnId + 1 := made.2
      exact Or.inl ⟨made.1, Nat.lt_of_le_of_ne (Nat.le_of_lt_succ below) newest⟩
  · exact Or.inl (same.made.mp made)

theorem Sound.step (sound : s.Sound) (taken : s.step event = some next) : next.Sound := by
  obtain ⟨placed, unaborted⟩ := sound.placed_step taken
  refine ⟨placed, ?_, unaborted⟩
  intro c made
  rcases sound.made_before taken made with before | ⟨sockfd, life⟩
  · have moves : ReflTransGen (Move (fun _ => True) True) (s.life c) (next.life c) :=
      sound.moves before (fun _ _ => trivial) (fun _ _ _ => trivial) taken
    exact moves_invariant (fun _ _ inv move => inv.move move) (sound.lives c before) moves
  · rw [life]
    exact inv_newborn sockfd

/-- No call of `shutdown` stores its state after the connection has been closed. -/
def Timely (s : TcpServer) (event : Event) : Prop :=
  ∀ c, event = .shutdownStores c → (s.conns c).state ≠ .disconnected

/-- A server whose connections are shut down only on their loops. -/
theorem timely_of_forall {events : List Event}
    (never : ∀ event ∈ events, ∀ c, event ≠ .shutdownStores c) (s : TcpServer) :
    Along TcpServer.step Timely s events := by
  induction events generalizing s with
  | nil => trivial
  | cons event rest ih =>
      refine ⟨fun c stores => absurd stores (never event (List.mem_cons_self ..) c), ?_⟩
      exact fun next _ => ih (fun other member => never other (List.mem_cons_of_mem _ member)) next

/-- The server is sound, and no connection has been shut down too late. -/
structure Orderly (s : TcpServer) : Prop extends Sound s where
  calm : ∀ c, s.Made c → (s.life c).Calm

theorem Orderly.step (orderly : s.Orderly) (timely : s.Timely event)
    (taken : s.step event = some next) : next.Orderly := by
  refine ⟨orderly.toSound.step taken, ?_⟩
  intro c made
  rcases orderly.toSound.made_before taken made with before | ⟨sockfd, life⟩
  · have kept : ∀ first second : ConnectionLife, first.Inv ∧ first.Calm →
        Move (· ≠ .disconnected) True first second → second.Inv ∧ second.Calm :=
      fun _ _ both move => ⟨both.1.move move, both.2.move both.1 move⟩
    exact (moves_invariant kept ⟨orderly.lives c before, orderly.calm c before⟩
      (orderly.toSound.moves before timely (fun _ _ _ => trivial) taken)).2
  · rw [life]
    exact calm_newborn sockfd

/-! ## Exceptions at the close of a connection -/

/-- No exception skips the close callback of the connection. -/
def Spares (c : ConnId) (s : TcpServer) (event : Event) : Prop :=
  ∀ loop, event = .callbackThrows loop → .closeCallback c ∉ s.unwound loop

/-- A server whose callbacks return. -/
theorem spares_of_forall {events : List Event}
    (never : ∀ event ∈ events, ∀ loop, event ≠ .callbackThrows loop) (c : ConnId)
    (s : TcpServer) : Along TcpServer.step (Spares c) s events := by
  induction events generalizing s with
  | nil => trivial
  | cons event rest ih =>
      refine ⟨fun loop throws => absurd throws (never event (List.mem_cons_self ..) loop), ?_⟩
      exact fun next _ => ih (fun other member => never other (List.mem_cons_of_mem _ member)) next

theorem Placed.told_of_not_made (placed : s.Placed) (unmade : ¬ s.Made c) : (s.life c).Told :=
  fun listed _ => absurd (placed.table _ (of_decide_eq_true listed)).1 unmade

theorem Sound.told_step (sound : s.Sound) (told : (s.life c).Told) (spares : Spares c s event)
    (taken : s.step event = some next) : (next.life c).Told := by
  by_cases made : next.Made c
  · rcases sound.made_before taken made with before | ⟨sockfd, life⟩
    · have moves : ReflTransGen (Move (fun _ => True) False) (s.life c) (next.life c) :=
        sound.moves before (fun _ _ => trivial) (fun loop throws => spares loop throws) taken
      exact moves_invariant (fun _ _ told move => told.move move) told moves
    · rw [life]
      exact told_newborn sockfd
  · exact (sound.step taken).placed.told_of_not_made made

variable {name : List Char} {numThreads : Int} {connectionCallback : Bool}
variable {idleTimeoutSeconds : Int} {events : List Event}

theorem sound_started (short : name.length ≤ 15) :
    (started name numThreads connectionCallback idleTimeoutSeconds).Sound :=
  ⟨placed_started short _ _ _, fun _ made => absurd made.1 (Nat.not_le_of_lt made.2), rfl⟩

theorem sound_of_run (short : name.length ≤ 15) (reached : run? TcpServer.step
    (started name numThreads connectionCallback idleTimeoutSeconds) events = some s) : s.Sound :=
  run?_invariant (fun _ _ _ => Sound.step) (sound_started short) reached

theorem orderly_started (short : name.length ≤ 15) :
    (started name numThreads connectionCallback idleTimeoutSeconds).Orderly :=
  ⟨sound_started short, fun _ made => absurd made.1 (Nat.not_le_of_lt made.2)⟩

theorem orderly_of_run (short : name.length ≤ 15) (timely : Along TcpServer.step Timely
      (started name numThreads connectionCallback idleTimeoutSeconds) events)
    (reached : run? TcpServer.step
      (started name numThreads connectionCallback idleTimeoutSeconds) events = some s) :
    s.Orderly :=
  run?_invariant_along (fun _ _ _ => Orderly.step) (orderly_started short) timely reached

theorem told_started (short : name.length ≤ 15) (c : ConnId) :
    ((started name numThreads connectionCallback idleTimeoutSeconds).life c).Told :=
  (placed_started short _ _ _).told_of_not_made fun made => Nat.not_le_of_lt made.2 made.1

theorem told_of_run (short : name.length ≤ 15) (spared : Along TcpServer.step (Spares c)
      (started name numThreads connectionCallback idleTimeoutSeconds) events)
    (reached : run? TcpServer.step
      (started name numThreads connectionCallback idleTimeoutSeconds) events = some s) :
    (s.life c).Told := by
  have kept : ∀ state event next, Sound state ∧ (life state c).Told → Spares c state event →
      TcpServer.step state event = some next → Sound next ∧ (life next c).Told :=
    fun _ _ _ both spares taken => ⟨both.1.step taken, both.1.told_step both.2 spares taken⟩
  exact (run?_invariant_along kept ⟨sound_started short, told_started short c⟩ spared reached).2

/-- The connection is in the table under its name. -/
def Holds (s : TcpServer) (c : ConnId) : Prop := (connName s.name c, c) ∈ s.connections.entries

theorem listed_iff : (s.life c).listed = true ↔ s.Holds c := decide_eq_true_iff

/-- However the threads interleave, no assertion fails.  A connection is established once
and before anything else happens to it, it leaves the table only when it has been closed,
and it is destroyed at most once and only when it has left. -/
theorem no_assertion_fails (short : name.length ≤ 15) (reached : run? TcpServer.step
    (started name numThreads connectionCallback idleTimeoutSeconds) events = some s) :
    s.aborted = false ∧ ∀ c, s.Made c →
      ((s.conns c).state = .connecting → (s.conns c).calls = []) ∧
      ((s.conns c).state ≠ .connecting → (s.conns c).calls.head? = some .established ∧
        (s.conns c).calls.count .established = 1) ∧
      (¬ s.Holds c → .closed ∈ (s.conns c).calls) ∧
      (s.conns c).calls.count .destroyed ≤ 1 ∧
      (.destroyed ∈ (s.conns c).calls → ¬ s.Holds c) := by
  have sound := sound_of_run short reached
  refine ⟨sound.unaborted, ?_⟩
  intro c made
  have inv := sound.lives c made
  have once := inv.once
  refine ⟨fun connecting => (inv.fresh connecting).1, fun later => (inv.begun later).2, ?_, ?_, ?_⟩
  · intro unlisted
    by_contra missing
    exact unlisted (listed_iff.mp (inv.kept missing).1)
  · change (s.life c).calls.count .destroyed ≤ 1
    omega
  · intro destroyed listed
    have counted : 0 < (s.life c).calls.count .destroyed := List.count_pos_iff.mpr destroyed
    rw [listed_iff.mpr listed, Bool.toNat_true] at once
    omega

/-- As long as no call of `shutdown` comes too late, the functions of a connection run in
the order of its life; its channel is registered exactly while it is open, and then the
table holds it. -/
theorem life_in_order (short : name.length ≤ 15) (timely : Along TcpServer.step Timely
      (started name numThreads connectionCallback idleTimeoutSeconds) events)
    (reached : run? TcpServer.step
      (started name numThreads connectionCallback idleTimeoutSeconds) events = some s)
    {c : ConnId} (made : s.Made c) :
    (s.conns c).calls <+: [.established, .closed, .destroyed] ∧
    ((s.conns c).channel.index = .added ↔
      (s.conns c).state = .connected ∨ (s.conns c).state = .disconnecting) ∧
    ((s.conns c).channel.index = .added → s.Holds c) := by
  have orderly := orderly_of_run short timely reached
  have inv := orderly.lives c made
  have calm := orderly.calm c made
  have registered : (s.life c).channel.index = .added ↔
      (s.life c).state = .connected ∨ (s.life c).state = .disconnecting := by
    cases state : (s.life c).state with
    | connecting => simp [(inv.fresh state).2.2.2.2.1]
    | connected | disconnecting => simp [calm.opened (by simp [state]) (by simp [state])]
    | disconnected => simpa using (calm.shut state).2.1
  refine ⟨?_, registered, ?_⟩
  · change (s.life c).calls <+: _
    cases state : (s.life c).state with
    | connecting => simp [(inv.fresh state).1]
    | connected | disconnecting => simp [calm.opened (by simp [state]) (by simp [state])]
    | disconnected => rcases (calm.shut state).1 with calls | calls <;> simp [calls]
  · intro added
    have only : (s.life c).calls = [.established] := by
      rcases registered.mp added with open_ | closing
      · exact (calm.opened (by simp [open_]) (by simp [open_])).1
      · exact (calm.opened (by simp [closing]) (by simp [closing])).1
    exact listed_iff.mp (inv.kept (by simp [only])).1

/-- No task is left on any loop. -/
def Idle (s : TcpServer) : Prop := ∀ loop ∈ s.loops, (s.work loop).tasks = []

instance instDecidableIdle (s : TcpServer) : Decidable s.Idle :=
  inferInstanceAs (Decidable (∀ loop ∈ s.loops, _))

theorem Idle.pending (idle : s.Idle) (c : ConnId) (kind : LifeKind) :
    (s.life c).pending kind = 0 := Workers.pending_idle idle

theorem Idle.not_closed_of_holds (idle : s.Idle) (told : (s.life c).Told) (held : s.Holds c) :
    .closed ∉ (s.conns c).calls := by
  intro closed
  have pending := told (listed_iff.mpr held) closed
  rw [idle.pending] at pending
  cases pending

theorem Sound.count_destroyed_of_idle (sound : s.Sound) (idle : s.Idle) (made : s.Made c)
    (left : ¬ s.Holds c) : (s.conns c).calls.count .destroyed = 1 := by
  have once := (sound.lives c made).once
  have unlisted : (s.life c).listed = false :=
    Bool.eq_false_iff.mpr fun listed => left (listed_iff.mp listed)
  rw [idle.pending, unlisted, Bool.toNat_false, Nat.add_zero, Nat.zero_add] at once
  exact once

/--
When the loops have nothing left to do, a connection that is out of the table has been
closed, and destroyed once, and one in the table has not been destroyed.  If no exception
has skipped the close callback of a connection, the table has it only if it has never been
closed.
-/
theorem nothing_left_when_idle (short : name.length ≤ 15) (reached : run? TcpServer.step
      (started name numThreads connectionCallback idleTimeoutSeconds) events = some s)
    (idle : s.Idle) {c : ConnId} (made : s.Made c) :
    (s.conns c).state ≠ .connecting ∧
    (s.Holds c → .destroyed ∉ (s.conns c).calls) ∧
    (¬ s.Holds c → .closed ∈ (s.conns c).calls ∧ (s.conns c).calls.count .destroyed = 1) ∧
    (Along TcpServer.step (Spares c)
        (started name numThreads connectionCallback idleTimeoutSeconds) events →
      s.Holds c → .closed ∉ (s.conns c).calls) := by
  have sound := sound_of_run short reached
  have inv := sound.lives c made
  refine ⟨?_, ?_, ?_, ?_⟩
  · intro connecting
    have pending := (inv.fresh connecting).2.1
    rw [idle.pending] at pending
    cases pending
  · intro held
    have once := inv.once
    rw [idle.pending, listed_iff.mpr held, Bool.toNat_true, Nat.add_zero] at once
    exact List.count_eq_zero.mp (Nat.add_left_cancel once)
  · intro left
    refine ⟨?_, sound.count_destroyed_of_idle idle made left⟩
    by_contra never
    exact left (listed_iff.mp (inv.kept never).1)
  · intro spared held
    exact idle.not_closed_of_holds (told_of_run short spared reached) held

end Runs

/-! ## A connection that is served -/

/-- The peer has hung up. -/
def hungUp : Revents := ⟨false, true, false, false, false, false⟩

/-- A connection on the only thread of the pool is accepted and closed by its peer; its
callback has been called. -/
def serveUntilClose : List Event :=
  [.accept 7 0, .start (.io 0), .proceed (.io 0) 0 .done, .callbackReturns (.io 0),
    .epollWait (.io 0) [(1, hungUp)], .proceed (.io 0) 1 .done, .proceed (.io 0) 1 .done,
    .proceed (.io 0) 1 .done]

def closing : TcpServer :=
  (run? TcpServer.step (started ['s'] 1 true 0) serveUntilClose).getD (started [] 0 true 0)

theorem serveUntilClose_reaches :
    run? TcpServer.step (started ['s'] 1 true 0) serveUntilClose = some closing :=
  run?_eq_some_getD (by decide)

/-- The callback returns, and the connection is destroyed. -/
def serveOne : List Event :=
  serveUntilClose ++ [.callbackReturns (.io 0), .proceed (.io 0) 1 .done, .start .base,
    .proceed .base 1 .done, .start (.io 0), .proceed (.io 0) 1 .done, .proceed (.io 0) 1 .done]

def served : TcpServer :=
  (run? TcpServer.step (started ['s'] 1 true 0) serveOne).getD (started [] 0 true 0)

theorem serveOne_reaches :
    run? TcpServer.step (started ['s'] 1 true 0) serveOne = some served :=
  run?_eq_some_getD (by decide)

theorem serveOne_timely : Along TcpServer.step Timely (started ['s'] 1 true 0) serveOne :=
  timely_of_forall (by simp [serveOne, serveUntilClose]) _

theorem no_assertion_fails_serveOne : served.aborted = false ∧ served.Made 1 ∧
    (served.conns 1).calls.count .destroyed ≤ 1 :=
  have made : served.Made 1 := by decide
  have all := no_assertion_fails (by decide) serveOne_reaches
  ⟨all.1, made, (all.2 1 made).2.2.2.1⟩

theorem life_in_order_serveOne : served.Made 1 ∧
    (served.conns 1).calls <+: [.established, .closed, .destroyed] :=
  have made : served.Made 1 := by decide
  ⟨made, (life_in_order (by decide) serveOne_timely serveOne_reaches made).1⟩

theorem nothing_left_when_idle_serveOne : served.Idle ∧ served.Made 1 ∧
    (served.Holds 1 → .closed ∉ (served.conns 1).calls) := by
  have idle : served.Idle := by decide
  have made : served.Made 1 := by decide
  have spared : Along TcpServer.step (Spares 1) (started ['s'] 1 true 0) serveOne :=
    spares_of_forall (by simp [serveOne, serveUntilClose]) _ _
  exact ⟨idle, made,
    (nothing_left_when_idle (by decide) serveOne_reaches idle made).2.2.2 spared⟩

/-- The callback throws instead. -/
def abandoned : TcpServer := (closing.step (.callbackThrows (.io 0))).getD (started [] 0 true 0)

/-- The closed connection stays in the table. -/
example : abandoned.Idle ∧ abandoned.Holds 1 ∧ .closed ∈ (abandoned.conns 1).calls := by
  unfold Holds
  decide

end TcpServer

end RpcFramework
