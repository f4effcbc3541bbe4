import RpcFramework.Lib.Mirrors
import RpcFramework.Lib.StepRun

/-!
# Ownership of pooled connections

A `TcpClient` of the pool is bound to at most one `RpcAsyncClient`: the
constructor claims it by compare-and-exchange on `owner_`, and the destructor
gives it back.  The destructor finds it through `tcpClient_`, which an explicit
`disconnect()` has reset by then.
-/

namespace RpcFramework.Pool

open PointerTables StepRun

/-- The address of an `RpcAsyncClient`; a new client may reuse that of a destroyed one. -/
abbrev Address := Nat

abbrev TcpClientId := Nat

/-- `TcpClient::tryClaim` on its `owner_`. -/
def tryClaim (owner : Option Address) (self : Address) : Bool × Option Address :=
  if owner = none then (true, some self) else (false, owner)

def releaseClaim (owner : Option Address) (self : Address) : Option Address :=
  if owner = some self then none else owner

def isClaimed (owner : Option Address) : Bool := owner.isSome

/-- An `RpcAsyncClient` built over a pooled `TcpClient`.  `claim` remembers the
`TcpClient` on which its `tryClaim` succeeded; the members agree with it. -/
structure Borrower where
  tcpClient : Option TcpClientId
  ownsClient : Bool
  invalid : Bool
  claim : Option TcpClientId
  owns : ownsClient = claim.isSome
  bound : tcpClient = none ∨ tcpClient = claim

/-- The members that the constructor leaves when it was given no `TcpClient`. -/
def Borrower.unbound : Borrower := ⟨none, false, false, none, rfl, Or.inl rfl⟩

/-- The members that the constructor leaves when `tryClaim` failed. -/
def Borrower.refused : Borrower := ⟨none, false, true, none, rfl, Or.inl rfl⟩

def Borrower.owner (t : TcpClientId) : Borrower := ⟨some t, true, false, some t, rfl, Or.inr rfl⟩

def Borrower.connect (borrower : Borrower) (connected : Bool) : Bool :=
  if borrower.invalid then false else connected

def Borrower.disconnect (borrower : Borrower) : Borrower :=
  { borrower with tcpClient := none, bound := Or.inl rfl }

/-- The `owner_` of every `TcpClient` and the clients that are alive. -/
structure Clients where
  owner : TcpClientId → Option Address
  alive : Address → Option Borrower

namespace Clients

def initial : Clients := ⟨fun _ => none, fun _ => none⟩

def construct (s : Clients) (self : Address) : Option TcpClientId → Clients
  | none => { s with alive := Function.update s.alive self (some .unbound) }
  | some t =>
      let claimed := tryClaim (s.owner t) self
      if claimed.1 then
        { owner := Function.update s.owner t claimed.2
          alive := Function.update s.alive self (some (.owner t)) }
      else
        { s with alive := Function.update s.alive self (some .refused) }

def disconnect (s : Clients) (self : Address) (borrower : Borrower) : Clients :=
  { s with alive := Function.update s.alive self (some borrower.disconnect) }

/-- The destructor keeps a copy of `tcpClient_` before it disconnects. -/
def destroy (s : Clients) (self : Address) (borrower : Borrower) : Clients :=
  let claimed := if borrower.ownsClient then borrower.tcpClient else none
  { owner :=
      match claimed with
      | some t => Function.update s.owner t (releaseClaim (s.owner t) self)
      | none => s.owner
    alive := Function.update s.alive self none }

inductive Event where
  | construct (self : Address) (tcpClient : Option TcpClientId)
  | connect (self : Address)
  | asyncCall (self : Address)
  | disconnect (self : Address)
  | destroy (self : Address)
  deriving DecidableEq, Repr

/-- One operation; `connect` and `asyncCall` only read what is modelled here. -/
def step (s : Clients) : Event → Option Clients
  | .construct self tcpClient =>
      match s.alive self with
      | none => some (s.construct self tcpClient)
      | some _ => none
  | .connect self | .asyncCall self => (s.alive self).map fun _ => s
  | .disconnect self => (s.alive self).map (s.disconnect self)
  | .destroy self => (s.alive self).map (s.destroy self)

/-- The `TcpClient` that the client at an address has claimed. -/
def claimOf (s : Clients) (self : Address) : Option TcpClientId :=
  (s.alive self).bind Borrower.claim

/--
Every `owner_` is null or a live client whose claim succeeded, at most one live
client holds a `TcpClient`, and without live clients none is claimed.
-/
structure Sound (s : Clients) : Prop where
  owned : ∀ t self, s.owner t = some self → s.claimOf self = some t
  alone : ∀ t first second, s.claimOf first = some t → s.claimOf second = some t → first = second
  returned : (∀ self, s.alive self = none) → ∀ t, isClaimed (s.owner t) = false

/-- A client that is destroyed while it owns a `TcpClient` still has it at hand. -/
def Releases (s : Clients) : Event → Prop
  | .destroy self => ∀ borrower, s.alive self = some borrower → borrower.ownsClient = true →
      borrower.tcpClient ≠ none
  | _ => True

section Steps

variable {s : Clients}

theorem claimOf_of_alive {self : Address} {borrower : Borrower}
    (alive : s.alive self = some borrower) : s.claimOf self = borrower.claim := by
  rw [claimOf, alive]
  rfl

theorem claimOf_of_dead {self : Address} (dead : s.alive self = none) :
    s.claimOf self = none := by
  rw [claimOf, dead]
  rfl

theorem claimOf_update (owner : TcpClientId → Option Address) (self : Address)
    (borrower : Option Borrower) :
    claimOf ⟨owner, Function.update s.alive self borrower⟩ =
      Function.update s.claimOf self (borrower.bind Borrower.claim) := by
  funext other
  unfold claimOf
  by_cases same : other = self
  · subst same
    simp only [Function.update_self]
  · simp only [Function.update_of_ne same]

/-- If claims last, everything follows from the owners being live claimants. -/
theorem sound_iff_mirrors (holds : Mirrors s.claimOf s.owner) :
    s.Sound ↔ Mirrors s.owner s.claimOf := by
  constructor
  · exact Sound.owned
  · intro owned
    refine ⟨owned, ?_, ?_⟩
    · intro t first second here there
      exact Option.some.inj ((holds first t here).symm.trans (holds second t there))
    · intro dead t
      cases owner : s.owner t with
      | none => rfl
      | some self =>
          have claim := owned t self owner
          rw [claimOf_of_dead (dead self)] at claim
          cases claim

/-! ## Single operations -/

/-- Claims last, and the owners are live claimants exactly if they were before
and the condition is met. -/
def Keeps (s next : Clients) (met : Prop) : Prop :=
  Mirrors next.claimOf next.owner ∧
    (Mirrors next.owner next.claimOf ↔ Mirrors s.owner s.claimOf ∧ met)

/-- An operation that leaves the claim at the address as it is. -/
theorem keeps_of_same_claim (holds : Mirrors s.claimOf s.owner) {self : Address}
    {borrower : Option Borrower} (same : borrower.bind Borrower.claim = s.claimOf self) :
    s.Keeps { s with alive := Function.update s.alive self borrower } True := by
  unfold Keeps
  rw [claimOf_update, same, Function.update_eq_self]
  exact ⟨holds, (and_iff_left trivial).symm⟩

theorem construct_of_free {t : TcpClientId} (free : s.owner t = none) (self : Address) :
    s.construct self (some t) =
      ⟨Function.update s.owner t (some self), Function.update s.alive self (some (.owner t))⟩ := by
  have claimed : tryClaim (s.owner t) self = (true, some self) := if_pos free
  simp only [construct, claimed, if_true]

theorem construct_of_claimed {t : TcpClientId} (claimed : s.owner t ≠ none) (self : Address) :
    s.construct self (some t) =
      { s with alive := Function.update s.alive self (some .refused) } := by
  have refused : tryClaim (s.owner t) self = (false, s.owner t) := if_neg claimed
  simp only [construct, refused, Bool.false_eq_true, if_false]

/-- A second client over a `TcpClient` never connects. -/
theorem connect_of_claimed {t : TcpClientId} (claimed : s.owner t ≠ none) (self : Address)
    (connected : Bool) : ∃ borrower,
      (s.construct self (some t)).alive self = some borrower ∧
        borrower.connect connected = false := by
  rw [construct_of_claimed claimed]
  exact ⟨.refused, Function.update_self .., rfl⟩

theorem construct_keeps (holds : Mirrors s.claimOf s.owner) {self : Address}
    (dead : s.alive self = none) (tcpClient : Option TcpClientId) :
    s.Keeps (s.construct self tcpClient) True := by
  have unbound : s.claimOf self = none := claimOf_of_dead dead
  cases tcpClient with
  | none => exact keeps_of_same_claim holds unbound.symm
  | some t =>
      by_cases free : s.owner t = none
      · rw [construct_of_free free, Keeps, claimOf_update, and_true]
        exact ⟨(mirrors_link unbound free).mpr holds, mirrors_link free unbound⟩
      · rw [construct_of_claimed free]
        exact keeps_of_same_claim holds unbound.symm

/-- The destructor gives back the `TcpClient` that it finds in `tcpClient_`. -/
theorem destroy_of_bound {self : Address} {borrower : Borrower} {t : TcpClientId}
    (owns : borrower.ownsClient = true) (bound : borrower.tcpClient = some t)
    (held : s.owner t = some self) :
    s.destroy self borrower =
      ⟨Function.update s.owner t none, Function.update s.alive self none⟩ := by
  have released : releaseClaim (s.owner t) self = none := if_pos held
  simp only [destroy, owns, bound, released, if_true]

theorem destroy_of_disconnected {self : Address} {borrower : Borrower}
    (nothing : borrower.ownsClient = false ∨ borrower.tcpClient = none) :
    s.destroy self borrower = { s with alive := Function.update s.alive self none } := by
  have claimed : (if borrower.ownsClient then borrower.tcpClient else none) = none := by
    rcases nothing with disowned | reset
    · rw [disowned]
      rfl
    · rw [reset, ite_self]
  simp only [destroy, claimed]

theorem destroy_keeps (holds : Mirrors s.claimOf s.owner) {self : Address} {borrower : Borrower}
    (alive : s.alive self = some borrower) :
    s.Keeps (s.destroy self borrower)
      (borrower.ownsClient = true → borrower.tcpClient ≠ none) := by
  have claim := claimOf_of_alive alive
  have owns := borrower.owns
  cases claimed : borrower.claim with
  | none =>
      rw [claimed] at claim owns
      rw [destroy_of_disconnected (Or.inl owns)]
      have kept : s.Keeps { s with alive := Function.update s.alive self none } True :=
        keeps_of_same_claim holds claim.symm
      obtain ⟨after, exact_step⟩ := kept
      refine ⟨after, exact_step.trans (and_congr_right fun _ => ?_)⟩
      exact iff_of_true trivial fun owner => absurd (owns.symm.trans owner) Bool.false_ne_true
  | some t =>
      rw [claimed] at claim owns
      have held := holds self t claim
      rcases borrower.bound with reset | bound
      · rw [destroy_of_disconnected (Or.inr reset), Keeps, claimOf_update]
        exact ⟨holds.clear self,
          iff_of_false (not_mirrors_of_cleared held) fun both => both.2 owns reset⟩
      · rw [claimed] at bound
        rw [destroy_of_bound owns bound held, Keeps, claimOf_update]
        refine ⟨(mirrors_unlink claim held).mpr holds, ?_⟩
        rw [bound]
        exact (mirrors_unlink held claim).trans (and_iff_left nofun).symm

theorem step_keeps (holds : Mirrors s.claimOf s.owner) {event : Event} {next : Clients}
    (taken : s.step event = some next) : s.Keeps next (s.Releases event) := by
  cases event with
  | construct self tcpClient =>
      rw [step] at taken
      split at taken
      · next dead =>
          cases taken
          exact construct_keeps holds dead tcpClient
      · cases taken
  | connect self =>
      obtain ⟨borrower, _, rfl⟩ := Option.map_eq_some_iff.mp taken
      exact ⟨holds, (and_iff_left trivial).symm⟩
  | asyncCall self =>
      obtain ⟨borrower, _, rfl⟩ := Option.map_eq_some_iff.mp taken
      exact ⟨holds, (and_iff_left trivial).symm⟩
  | disconnect self =>
      obtain ⟨borrower, alive, rfl⟩ := Option.map_eq_some_iff.mp taken
      exact keeps_of_same_claim holds (claimOf_of_alive alive).symm
  | destroy self =>
      obtain ⟨borrower, alive, rfl⟩ := Option.map_eq_some_iff.mp taken
      obtain ⟨after, exact_step⟩ := destroy_keeps holds alive
      refine ⟨after, exact_step.trans (and_congr_right fun _ => ?_)⟩
      constructor
      · intro releases other also
        cases alive.symm.trans also
        exact releases
      · exact fun releases => releases borrower alive

end Steps

/--
After any sequence of constructions, calls, disconnects and destructions the
ownership is sound exactly if no owner was destroyed that had been disconnected
before.
-/
theorem sound_iff_releases {events : List Event} {final : Clients}
    (reached : run? step initial events = some final) :
    final.Sound ↔ Along step Releases initial events := by
  have kept : ∀ (s : Clients) event next, Mirrors s.claimOf s.owner → s.step event = some next →
      Mirrors next.claimOf next.owner := fun _ _ _ holds taken => (step_keeps holds taken).1
  have exact_step : ∀ (s : Clients) event next, Mirrors s.claimOf s.owner →
      s.step event = some next →
        (Mirrors next.owner next.claimOf ↔ Mirrors s.owner s.claimOf ∧ s.Releases event) :=
    fun _ _ _ holds taken => (step_keeps holds taken).2
  have start : Mirrors initial.claimOf initial.owner := nofun
  have holds := run?_invariant kept start reached
  have owned : Mirrors initial.owner initial.claimOf := nofun
  have run : Mirrors final.owner final.claimOf ↔
      Mirrors initial.owner initial.claimOf ∧ Along step Releases initial events :=
    run?_exact_along kept exact_step start reached
  rw [sound_iff_mirrors holds, run]
  exact and_iff_right owned

/-- Two clients over one `TcpClient`: the second is refused, and both are destroyed. -/
def sharedTcpClient : List Event :=
  [.construct 0 (some 0), .construct 1 (some 0), .connect 1, .asyncCall 1, .destroy 1, .destroy 0]

theorem sound_iff_releases_sharedTcpClient :
    ∃ final, run? step initial sharedTcpClient = some final ∧ final.Sound ∧
      isClaimed (final.owner 0) = false := by
  obtain ⟨final, reached, unclaimed⟩ : ∃ final,
      run? step initial sharedTcpClient = some final ∧ isClaimed (final.owner 0) = false :=
    ⟨_, rfl, rfl⟩
  refine ⟨final, reached, (sound_iff_releases reached).mpr ?_, unclaimed⟩
  refine .cons trivial rfl (.cons trivial rfl (.cons trivial rfl (.cons trivial rfl
    (.cons ?_ rfl (.cons ?_ rfl trivial)))))
  · rintro borrower ⟨⟩ ⟨⟩
  · rintro borrower ⟨⟩ _ ⟨⟩

/-- A client that is disconnected and then destroyed leaves its `TcpClient` claimed. -/
theorem claimed_after_disconnect :
    ∃ final, run? step initial [.construct 0 (some 0), .disconnect 0, .destroy 0] = some final ∧
      final.owner 0 = some 0 ∧ (∀ self, final.alive self = none) ∧ ¬ final.Sound := by
  obtain ⟨final, reached, claimed, dead⟩ : ∃ final,
      run? step initial [.construct 0 (some 0), .disconnect 0, .destroy 0] = some final ∧
        final.owner 0 = some 0 ∧ ∀ self, final.alive self = none := by
    refine ⟨_, rfl, rfl, ?_⟩
    intro self
    cases self with
    | zero => rfl
    | succ n => rfl
  refine ⟨final, reached, claimed, dead, ?_⟩
  intro sound
  have unclaimed := sound.returned dead 0
  rw [claimed] at unclaimed
  cases unclaimed

end Clients

end RpcFramework.Pool
