import Mathlib.Logic.Function.Basic
import RpcFramework.Lib.StepRun
import RpcFramework.Network.Lifecycle

/-!
# The channels of a loop and its interest list

A loop keeps the interest list of an epoll instance in step with its channels.
`updateChannel` and `removeChannel` decide by the `index_` of a channel which
call of `epoll_ctl` to make; they ignore its failures.  An entry of the list
holds the address of the channel, which the loop follows when an event is
reported.

The calls succeed and the entries point to living channels as long as two rules
are kept: a file descriptor is registered while it is open, for one channel at a
time, and it is closed only when it is not registered.
-/

namespace RpcFramework

open StepRun

namespace Channel

/-- The values of `index_`: -1, 1 and 2. -/
inductive Index where
  | unregistered
  | added
  | deleted
  deriving DecidableEq, Repr

def disableReading (channel : Channel) : Channel := { channel with isReading := false }

def isNoneEvent (channel : Channel) : Bool := !channel.isReading && !channel.isWriting

/-- The functions of a channel that set `events_`. -/
inductive Change where
  | enableReading
  | disableReading
  | enableWriting
  | disableWriting
  | disableAll
  deriving DecidableEq, Repr

def Change.apply : Change → Channel → Channel
  | .enableReading => Channel.enableReading
  | .disableReading => Channel.disableReading
  | .enableWriting => Channel.enableWriting
  | .disableWriting => Channel.disableWriting
  | .disableAll => Channel.disableAll

end Channel

/-- A channel with its file descriptor and its state in the poller. -/
structure PolledChannel where
  fd : Nat
  events : Channel
  index : Channel.Index
  deriving DecidableEq, Repr

namespace PolledChannel

/-- The channel after one of its functions has called `updateChannel`. -/
def update (channel : PolledChannel) (change : Channel.Change) : PolledChannel :=
  let events := change.apply channel.events
  match channel.index with
  | .added => ⟨channel.fd, events, if events.isNoneEvent then .deleted else .added⟩
  | _ => ⟨channel.fd, events, .added⟩

/-- The channel after `removeChannel`. -/
def remove (channel : PolledChannel) : PolledChannel := { channel with index := .unregistered }

end PolledChannel

inductive EpollOp where
  | add
  | mod
  | del
  deriving DecidableEq, Repr

abbrev ChannelId := Nat

/-- The living channels, the open file descriptors with their entries in the interest list
(the channel and the mask), and the calls of `epoll_ctl` that have failed. -/
structure Poller where
  channels : ChannelId → Option PolledChannel
  descriptors : Nat → Option (Option (ChannelId × Channel))
  failures : List (EpollOp × Nat)

namespace Poller

/-- `socket` stands for every call of the kernel that hands out a file descriptor. -/
inductive Event where
  | socket (fd : Nat)
  | create (id : ChannelId) (fd : Nat)
  | update (id : ChannelId) (change : Channel.Change)
  | remove (id : ChannelId)
  | destroy (id : ChannelId)
  | close (fd : Nat)
  deriving DecidableEq, Repr

def initial : Poller := ⟨fun _ => none, fun _ => none, []⟩

/-- The interest list: it has entries for open descriptors only. -/
def interest (p : Poller) (fd : Nat) : Option (ChannelId × Channel) := (p.descriptors fd).join

def setEntry (p : Poller) (fd : Nat) (entry : Option (ChannelId × Channel)) : Poller :=
  { p with descriptors := Function.update p.descriptors fd (some entry) }

/-- `epoll_ctl` on an open descriptor: an entry is added if there is none, and changed or
deleted if there is one. -/
def epollCtl (p : Poller) (op : EpollOp) (fd : Nat) (event : ChannelId × Channel) : Poller :=
  match p.descriptors fd, op with
  | some none, .add => p.setEntry fd (some event)
  | some (some _), .mod => p.setEntry fd (some event)
  | some (some _), .del => p.setEntry fd none
  -- EBADF, EEXIST and ENOENT
  | _, _ => { p with failures := p.failures ++ [(op, fd)] }

def setChannel (p : Poller) (id : ChannelId) (channel : PolledChannel) : Poller :=
  { p with channels := Function.update p.channels id (some channel) }

def updateChannel (p : Poller) (id : ChannelId) (channel : PolledChannel) : Poller :=
  match channel.index with
  | .added =>
      if channel.events.isNoneEvent then
        (p.epollCtl .del channel.fd (id, channel.events)).setChannel id
          { channel with index := .deleted }
      else (p.epollCtl .mod channel.fd (id, channel.events)).setChannel id channel
  | _ =>
      (p.epollCtl .add channel.fd (id, channel.events)).setChannel id
        { channel with index := .added }

def removeChannel (p : Poller) (id : ChannelId) (channel : PolledChannel) : Poller :=
  let p :=
    if channel.index = .added then p.epollCtl .del channel.fd (id, channel.events) else p
  p.setChannel id { channel with index := .unregistered }

/-- The destructor of a channel. -/
def destroyChannel (p : Poller) (id : ChannelId) (channel : PolledChannel) : Poller :=
  let p := if channel.index ≠ .unregistered then p.removeChannel id channel else p
  { p with channels := Function.update p.channels id none }

/-- A file descriptor that is closed leaves the interest list. -/
def closeFd (p : Poller) (fd : Nat) : Poller :=
  { p with descriptors := Function.update p.descriptors fd none }

def step (p : Poller) : Event → Option Poller
  | .socket fd => if (p.descriptors fd).isNone then some (p.setEntry fd none) else none
  | .create id fd =>
      match p.channels id with
      | none => some (p.setChannel id ⟨fd, ⟨false, false⟩, .unregistered⟩)
      | some _ => none
  | .update id change =>
      (p.channels id).map fun channel =>
        p.updateChannel id { channel with events := change.apply channel.events }
  | .remove id => (p.channels id).map (p.removeChannel id)
  | .destroy id => (p.channels id).map (p.destroyChannel id)
  | .close fd => some (p.closeFd fd)

/-- Every registered channel has its entry, every entry is that of a living channel that is
registered, and no call of `epoll_ctl` has failed. -/
structure Healthy (p : Poller) : Prop where
  listed : ∀ id channel, p.channels id = some channel → channel.index = .added →
    p.interest channel.fd = some (id, channel.events)
  living : ∀ fd id mask, p.interest fd = some (id, mask) →
    ∃ channel, p.channels id = some channel ∧ channel.fd = fd ∧ channel.index = .added ∧
      channel.events = mask
  succeeded : p.failures = []

/-- No other channel is registered for the file descriptor. -/
def Exclusive (p : Poller) (id : ChannelId) (fd : Nat) : Prop :=
  ∀ other channel, p.channels other = some channel → channel.index = .added →
    channel.fd = fd → other = id

/-- A file descriptor is registered while it is open, for one channel at a time, and is not
closed while it is registered. -/
def Disciplined (p : Poller) : Event → Prop
  | .update id _ => ∀ channel, p.channels id = some channel →
      (p.descriptors channel.fd).isSome ∧ p.Exclusive id channel.fd
  | .close fd => ∀ id channel, p.channels id = some channel → channel.index = .added →
      channel.fd ≠ fd
  | _ => True

section Steps

variable {p : Poller} {id : ChannelId} {channel : PolledChannel}

theorem interest_setEntry (p : Poller) (fd : Nat) (entry : Option (ChannelId × Channel)) :
    (p.setEntry fd entry).interest = Function.update p.interest fd entry :=
  funext (Function.apply_update (fun _ => Option.join) p.descriptors fd (some entry))

theorem interest_closeFd (p : Poller) (fd : Nat) :
    (p.closeFd fd).interest = Function.update p.interest fd none :=
  funext (Function.apply_update (fun _ => Option.join) p.descriptors fd none)

theorem Healthy.of_same {next : Poller} (healthy : p.Healthy) (channels : next.channels = p.channels)
    (interest : next.interest = p.interest) (failures : next.failures = p.failures) :
    next.Healthy := by
  refine ⟨?_, ?_, failures.trans healthy.succeeded⟩
  · rw [channels, interest]
    exact healthy.listed
  · rw [channels, interest]
    exact healthy.living

theorem Healthy.initial : initial.Healthy where
  listed _ _ impossible := by cases impossible
  living _ _ _ impossible := by cases impossible
  succeeded := rfl

theorem Healthy.unlisted (healthy : p.Healthy) {fd : Nat}
    (unused : ∀ id channel, p.channels id = some channel → channel.index = .added →
      channel.fd ≠ fd) : p.interest fd = none := by
  cases entry : p.interest fd with
  | none => rfl
  | some target =>
      obtain ⟨channel, alive, sameFd, registered, _⟩ := healthy.living fd target.1 target.2 entry
      exact absurd sameFd (unused _ channel alive registered)

/-- An unregistered channel may be put in the place of an unregistered channel or of none. -/
theorem Healthy.setUnlisted (healthy : p.Healthy)
    (before : ∀ old, p.channels id = some old → old.index ≠ .added)
    (unregistered : channel.index ≠ .added) : (p.setChannel id channel).Healthy := by
  refine ⟨?_, ?_, healthy.succeeded⟩
  · intro other found alive registered
    by_cases same : other = id
    · subst same
      cases (Function.update_self other _ p.channels).symm.trans alive
      exact absurd registered unregistered
    · exact healthy.listed other found ((Function.update_of_ne same _ _).symm.trans alive) registered
  · intro fd other mask entry
    obtain ⟨found, alive, facts⟩ := healthy.living fd other mask entry
    have differs : other ≠ id := by
      rintro rfl
      exact before found alive facts.2.1
    exact ⟨found, (Function.update_of_ne differs _ _).trans alive, facts⟩

/-- The registered channel and its entry are replaced together. -/
theorem Healthy.setListed (healthy : p.Healthy)
    (own : ∀ other found, p.channels other = some found → found.index = .added →
      found.fd = channel.fd → other = id)
    (sameFd : ∀ old, p.channels id = some old → old.fd = channel.fd)
    (registered : channel.index = .added) :
    ((p.setEntry channel.fd (some (id, channel.events))).setChannel id channel).Healthy := by
  have list := p.interest_setEntry channel.fd (some (id, channel.events))
  refine ⟨?_, ?_, healthy.succeeded⟩
  · intro other found alive added
    change (p.setEntry channel.fd (some (id, channel.events))).interest found.fd = _
    rw [list]
    by_cases same : other = id
    · subst same
      cases (Function.update_self other _ p.channels).symm.trans alive
      exact Function.update_self ..
    · have alive : p.channels other = some found :=
        (Function.update_of_ne same _ _).symm.trans alive
      have elsewhere : found.fd ≠ channel.fd := fun shared =>
        same (own other found alive added shared)
      exact (Function.update_of_ne elsewhere _ _).trans (healthy.listed other found alive added)
  · intro fd other mask entry
    change (p.setEntry channel.fd (some (id, channel.events))).interest fd = _ at entry
    rw [list] at entry
    by_cases here : fd = channel.fd
    · subst here
      cases (Function.update_self channel.fd _ p.interest).symm.trans entry
      exact ⟨channel, Function.update_self .., rfl, registered, rfl⟩
    · obtain ⟨found, alive, foundFd, facts⟩ :=
        healthy.living fd other mask ((Function.update_of_ne here _ _).symm.trans entry)
      have differs : other ≠ id := by
        rintro rfl
        exact here (foundFd.symm.trans (sameFd found alive))
      exact ⟨found, (Function.update_of_ne differs _ _).trans alive, foundFd, facts⟩

/-- A registered channel and its entry go together. -/
theorem Healthy.clearListed (healthy : p.Healthy) (alive : p.channels id = some channel)
    (registered : channel.index = .added)
    {next : Option PolledChannel} (gone : ∀ after, next = some after → after.index ≠ .added) :
    Healthy { p.setEntry channel.fd none with
      channels := Function.update p.channels id next } := by
  have entry := healthy.listed id channel alive registered
  have list := p.interest_setEntry channel.fd none
  refine ⟨?_, ?_, healthy.succeeded⟩
  · intro other found living added
    change (p.setEntry channel.fd none).interest found.fd = _
    rw [list]
    by_cases same : other = id
    · subst same
      exact absurd added (gone found ((Function.update_self other _ p.channels).symm.trans living))
    · have living : p.channels other = some found :=
        (Function.update_of_ne same _ _).symm.trans living
      have listed := healthy.listed other found living added
      have elsewhere : found.fd ≠ channel.fd := by
        intro shared
        rw [shared, entry] at listed
        exact same (Prod.mk.inj (Option.some.inj listed)).1.symm
      exact (Function.update_of_ne elsewhere _ _).trans listed
  · intro fd other mask found
    change (p.setEntry channel.fd none).interest fd = _ at found
    rw [list] at found
    have elsewhere : fd ≠ channel.fd := by
      rintro rfl
      cases (Function.update_self channel.fd none p.interest).symm.trans found
    have found : p.interest fd = some (other, mask) :=
      (Function.update_of_ne elsewhere _ _).symm.trans found
    obtain ⟨target, living, targetFd, facts⟩ := healthy.living fd other mask found
    have differs : other ≠ id := by
      rintro rfl
      cases alive.symm.trans living
      exact elsewhere targetFd.symm
    exact ⟨target, (Function.update_of_ne differs _ _).trans living, targetFd, facts⟩

/-- Two channels are never registered for one file descriptor. -/
theorem Healthy.exclusive (healthy : p.Healthy) (alive : p.channels id = some channel)
    (registered : channel.index = .added) : p.Exclusive id channel.fd := by
  intro other found living added shared
  have own := healthy.listed id channel alive registered
  have listed := healthy.listed other found living added
  rw [shared, own] at listed
  exact (Prod.mk.inj (Option.some.inj listed)).1.symm

theorem epollCtl_known {fd : Nat} {event target : ChannelId × Channel}
    (entry : p.interest fd = some target) :
    p.epollCtl .add fd event = { p with failures := p.failures ++ [(.add, fd)] } ∧
      p.epollCtl .mod fd event = p.setEntry fd (some event) ∧
      p.epollCtl .del fd event = p.setEntry fd none := by
  unfold epollCtl
  rw [Option.join_eq_some_iff.mp entry]
  exact ⟨rfl, rfl, rfl⟩

theorem epollCtl_add_unknown {fd : Nat} {event : ChannelId × Channel}
    (opened : (p.descriptors fd).isSome) (missing : p.interest fd = none) :
    p.epollCtl .add fd event = p.setEntry fd (some event) := by
  obtain ⟨entry, here⟩ := Option.isSome_iff_exists.mp opened
  rw [interest, here, Option.join_some] at missing
  unfold epollCtl
  rw [here, missing]

theorem epollCtl_closed {op : EpollOp} {fd : Nat} {event : ChannelId × Channel}
    (closed : p.descriptors fd = none) :
    p.epollCtl op fd event = { p with failures := p.failures ++ [(op, fd)] } := by
  unfold epollCtl
  rw [closed]

theorem Healthy.updateChannel (healthy : p.Healthy) (alive : p.channels id = some channel)
    (opened : (p.descriptors channel.fd).isSome) (exclusive : p.Exclusive id channel.fd)
    (events : Channel) : (p.updateChannel id { channel with events := events }).Healthy := by
  have sameFd : ∀ old, p.channels id = some old → old.fd = channel.fd := by
    intro old also
    cases alive.symm.trans also
    rfl
  by_cases registered : channel.index = .added
  · have entry := healthy.listed id channel alive registered
    unfold Poller.updateChannel
    rw [registered]
    dsimp only
    obtain ⟨_, changed, deleted⟩ := @epollCtl_known p channel.fd (id, events) _ entry
    split
    · rw [deleted]
      refine healthy.clearListed alive registered ?_
      rintro after ⟨⟩
      exact Channel.Index.noConfusion
    · rw [changed]
      exact @Healthy.setListed p id { channel with events := events, index := .added } healthy
        exclusive sameFd rfl
  · have missing : p.interest channel.fd = none := by
      apply healthy.unlisted
      intro other found living added shared
      cases exclusive other found living added shared
      cases alive.symm.trans living
      exact registered added
    have added : p.updateChannel id { channel with events := events } =
        (p.epollCtl .add channel.fd (id, events)).setChannel id
          { channel with events := events, index := .added } := by
      unfold Poller.updateChannel
      cases index : channel.index with
      | added => exact absurd index registered
      | unregistered => rfl
      | deleted => rfl
    rw [added, epollCtl_add_unknown opened missing]
    exact @Healthy.setListed p id { channel with events := events, index := .added } healthy
      exclusive sameFd rfl

theorem Healthy.removeChannel (healthy : p.Healthy) (alive : p.channels id = some channel) :
    (p.removeChannel id channel).Healthy := by
  have gone : ∀ {after : PolledChannel}, after.index = .unregistered → after.index ≠ .added := by
    intro after removed
    rw [removed]
    exact Channel.Index.noConfusion
  unfold Poller.removeChannel
  split
  · next registered =>
      have entry := healthy.listed id channel alive registered
      rw [(epollCtl_known entry).2.2]
      refine healthy.clearListed alive registered ?_
      rintro after ⟨⟩
      exact gone rfl
  · next unregistered =>
      refine healthy.setUnlisted ?_ (gone rfl)
      intro old also
      cases alive.symm.trans also
      exact unregistered

/-- A channel that is not registered may go. -/
theorem Healthy.dropUnlisted (healthy : p.Healthy) (alive : p.channels id = some channel)
    (unregistered : channel.index ≠ .added) :
    Healthy { p with channels := Function.update p.channels id none } := by
  refine ⟨?_, ?_, healthy.succeeded⟩
  · intro other found living added
    by_cases same : other = id
    · subst same
      cases (Function.update_self other none p.channels).symm.trans living
    · exact healthy.listed other found ((Function.update_of_ne same _ _).symm.trans living) added
  · intro fd other mask entry
    obtain ⟨found, living, facts⟩ := healthy.living fd other mask entry
    have differs : other ≠ id := by
      rintro rfl
      cases alive.symm.trans living
      exact unregistered facts.2.1
    exact ⟨found, (Function.update_of_ne differs _ _).trans living, facts⟩

theorem Healthy.destroyChannel (healthy : p.Healthy) (alive : p.channels id = some channel) :
    (p.destroyChannel id channel).Healthy := by
  have unregistered : Channel.Index.unregistered ≠ .added := Channel.Index.noConfusion
  unfold Poller.destroyChannel
  dsimp only
  split
  · have removed : (p.removeChannel id channel).channels id =
        some { channel with index := .unregistered } := Function.update_self ..
    exact (healthy.removeChannel alive).dropUnlisted removed unregistered
  · next removed =>
      rw [not_not] at removed
      exact healthy.dropUnlisted alive (removed ▸ unregistered)

theorem Healthy.step {event : Event} {next : Poller} (healthy : p.Healthy)
    (disciplined : p.Disciplined event) (taken : p.step event = some next) : next.Healthy := by
  cases event with
  | socket fd =>
      obtain ⟨closed, ⟨⟩⟩ := Option.ite_none_right_eq_some.mp taken
      refine healthy.of_same rfl ?_ rfl
      have unlisted : p.interest fd = none := by
        rw [interest, Option.isNone_iff_eq_none.mp closed, Option.join_none]
      rw [interest_setEntry, ← unlisted, Function.update_eq_self]
  | create id fd =>
      rw [Poller.step] at taken
      split at taken
      · next free =>
          cases taken
          refine healthy.setUnlisted ?_ Channel.Index.noConfusion
          intro old alive
          cases free.symm.trans alive
      · cases taken
  | update id change =>
      obtain ⟨channel, alive, rfl⟩ := Option.map_eq_some_iff.mp taken
      obtain ⟨opened, exclusive⟩ := disciplined channel alive
      exact healthy.updateChannel alive opened exclusive _
  | remove id =>
      obtain ⟨channel, alive, rfl⟩ := Option.map_eq_some_iff.mp taken
      exact healthy.removeChannel alive
  | destroy id =>
      obtain ⟨channel, alive, rfl⟩ := Option.map_eq_some_iff.mp taken
      exact healthy.destroyChannel alive
  | close fd =>
      cases taken
      refine healthy.of_same rfl ?_ rfl
      rw [interest_closeFd, ← healthy.unlisted disciplined, Function.update_eq_self]

/-- A channel that would break a rule is not registered, and the kernel does not add it. -/
theorem Healthy.add_fails (healthy : p.Healthy) (alive : p.channels id = some channel)
    (bad : ¬ ((p.descriptors channel.fd).isSome ∧ p.Exclusive id channel.fd)) :
    channel.index ≠ .added ∧ ∀ event, p.epollCtl .add channel.fd event =
      { p with failures := p.failures ++ [(.add, channel.fd)] } := by
  cases here : p.descriptors channel.fd with
  | none =>
      refine ⟨?_, fun event => epollCtl_closed here⟩
      intro registered
      have entry := healthy.listed id channel alive registered
      rw [interest, here] at entry
      cases entry
  | some listed =>
      rw [here, and_iff_right Option.isSome_some, Exclusive] at bad
      push Not at bad
      obtain ⟨other, found, living, added, shared, differs⟩ := bad
      have entry := healthy.listed other found living added
      rw [shared] at entry
      refine ⟨?_, fun event => (epollCtl_known entry).1⟩
      intro registered
      exact differs (healthy.exclusive alive registered other found living added shared)

/-- A step that breaks a rule is refused by the kernel or leaves a registered channel
without its entry. -/
theorem Healthy.broken {event : Event} {next : Poller} (healthy : p.Healthy)
    (undisciplined : ¬ p.Disciplined event) (taken : p.step event = some next) :
    ¬ next.Healthy := by
  intro after
  cases event with
  | socket fd => exact undisciplined trivial
  | create id fd => exact undisciplined trivial
  | update id change =>
      obtain ⟨channel, alive, rfl⟩ := Option.map_eq_some_iff.mp taken
      obtain ⟨_, bad⟩ := not_forall.mp undisciplined
      obtain ⟨also, bad⟩ := Classical.not_imp.mp bad
      cases alive.symm.trans also
      obtain ⟨unregistered, fails⟩ := healthy.add_fails alive bad
      let changed := { channel with events := change.apply channel.events }
      have failed : (p.updateChannel id changed).failures =
          p.failures ++ [(.add, channel.fd)] := by
        unfold Poller.updateChannel
        cases index : channel.index with
        | added => exact absurd index unregistered
        | unregistered | deleted =>
            dsimp only
            rw [fails]
            rfl
      have succeeded := after.succeeded
      rw [failed] at succeeded
      exact List.append_ne_nil_of_right_ne_nil _ (List.cons_ne_nil _ _) succeeded
  | remove id => exact undisciplined trivial
  | destroy id => exact undisciplined trivial
  | close fd =>
      cases taken
      simp only [Disciplined, not_forall, not_not] at undisciplined
      obtain ⟨id, channel, alive, registered, rfl⟩ := undisciplined
      have listed := after.listed id channel alive registered
      rw [interest_closeFd, Function.update_self] at listed
      cases listed

end Steps

/-- A file descriptor is used for two channels, one after the other. -/
def reuse : List Event :=
  [.socket 5, .create 0 5, .update 0 .enableReading, .update 0 .enableWriting,
    .update 0 .disableWriting,
    .update 0 .disableAll, .remove 0, .create 1 5, .update 1 .enableReading, .destroy 0,
    .destroy 1, .close 5]

end Poller

end RpcFramework
