import Mathlib.Algebra.Group.Nat.Defs
import Mathlib.Data.Finset.Card
import RpcFramework.Pool.Ownership

/-!
# Borrowing from a connection pool

A borrower acquires a `TcpClient` from an endpoint of the pool, constructs an
`RpcAsyncClient` over it, which claims the `TcpClient`, and destroys it again.
`acquire` holds the mutex of the pool, but constructions and destructions do
not, so each round of its loop is a step of its own.

`acquire` looks at the claim of a `TcpClient` and does not take it.  Whether
two borrowers are given the same one is up to the cursor: it must not come
round while a borrower is between its `acquire` and its construction.
-/

namespace RpcFramework.Pool

open StepRun

namespace Lending

/-- Where a borrower stands.  `visited` holds the clients that its `acquire` has
looked at, the latest first, and `cursor` the position at which it was given
its client. -/
inductive Phase where
  | idle
  | acquiring (visited : List TcpClientId) (fallback : Option TcpClientId)
  | holding (client : Option TcpClientId) (cursor : Nat)
  | constructed (cursor : Nat)
  deriving DecidableEq, Repr

/-- The cursor position of a borrower that has been given a client. -/
def Phase.cursor? : Phase → Option Nat
  | .holding _ cursor | .constructed cursor => some cursor
  | .idle | .acquiring _ _ => none

end Lending

open Lending

/-- An endpoint of the pool with its borrowers.  `nextIndex` counts the uses of
the cursor; the source keeps it modulo `2 ^ 64`. -/
structure Lending where
  clients : Clients
  nextIndex : Nat
  mutex : Option Address
  phase : Address → Phase

namespace Lending

def initial : Lending := ⟨.initial, 0, none, fun _ => .idle⟩

def setPhase (s : Lending) (b : Address) (phase : Phase) : Lending :=
  { s with phase := Function.update s.phase b phase }

/-- The borrowers between their `acquire` and their destruction. -/
def active (borrowers : Nat) (s : Lending) : Finset Address :=
  (Finset.range borrowers).filter fun b => s.phase b ≠ .idle

/-- The client at a position of the cursor. -/
def index (size nextIndex : Nat) : TcpClientId := nextIndex % 2 ^ 64 % size

/-- One round of the loop in `acquire`. -/
def probe (size : Nat) (connected : TcpClientId → Bool) (s : Lending) (b : Address)
    (visited : List TcpClientId) (fallback : Option TcpClientId) : Lending :=
  let idx := index size s.nextIndex
  let next := { s with nextIndex := s.nextIndex + 1 }
  if isClaimed (s.clients.owner idx) then
    next.setPhase b (.acquiring (idx :: visited) fallback)
  else if connected idx then
    { next.setPhase b (.holding (some idx) s.nextIndex) with mutex := none }
  else next.setPhase b (.acquiring (idx :: visited) (fallback.or (some idx)))

inductive Event where
  | acquire (b : Address)
  | probe
  | fallBack
  | construct (b : Address)
  | destroy (b : Address)
  deriving DecidableEq, Repr

/-- A borrower begins to acquire only if at most `size` borrowers are under way then. -/
def step (size borrowers : Nat) (connected : TcpClientId → Bool) (s : Lending) :
    Event → Option Lending
  | .acquire b =>
      if s.mutex = none ∧ b < borrowers ∧ s.phase b = .idle ∧ (s.active borrowers).card < size then
        some { s.setPhase b (.acquiring [] none) with mutex := some b }
      else none
  | .probe =>
      match s.mutex with
      | none => none
      | some b =>
          match s.phase b with
          | .acquiring visited fallback =>
              if visited.length < size then some (s.probe size connected b visited fallback)
              else none
          | _ => none
  | .fallBack =>
      match s.mutex with
      | none => none
      | some b =>
          match s.phase b with
          | .acquiring visited fallback =>
              if visited.length < size then none
              else some { s.setPhase b (.holding fallback s.nextIndex) with mutex := none }
          | _ => none
  | .construct b =>
      match s.phase b with
      | .holding client cursor =>
          some { s.setPhase b (.constructed cursor) with clients := s.clients.construct b client }
      | _ => none
  | .destroy b =>
      match s.phase b, s.clients.alive b with
      | .constructed _, some borrower =>
          some { s.setPhase b .idle with clients := s.clients.destroy b borrower }
      | _, _ => none

/-- An `acquire` that ends without a connected client has one to fall back on, and
the `TcpClient` that was acquired can be claimed. -/
def Succeeds (size : Nat) (s : Lending) : Event → Prop
  | .fallBack => ∀ b visited fallback, s.mutex = some b →
      s.phase b = .acquiring visited fallback → size ≤ visited.length → fallback ≠ none
  | .construct b => ∀ client cursor, s.phase b = .holding client cursor →
      ∃ t, client = some t ∧ (tryClaim (s.clients.owner t) b).1 = true
  | _ => True

/-- The cursor has not come back to the client of a borrower that constructs, and
does not lead an `acquire` to a client that it has looked at before. -/
def InTurn (size : Nat) (s : Lending) : Event → Prop
  | .probe => ∀ b visited fallback, s.mutex = some b →
      s.phase b = .acquiring visited fallback → index size s.nextIndex ∉ visited
  | .construct b => ∀ client cursor, s.phase b = .holding client cursor →
      ∀ later, cursor < later → later < s.nextIndex → index size later ≠ index size cursor
  | _ => True

/-- The visited clients that are claimed. -/
def claimed (s : Lending) (visited : List TcpClientId) : Finset TcpClientId :=
  visited.toFinset.filter fun t => s.clients.owner t ≠ none

/-- What an `acquire` under way knows: every visited client was claimed by a
borrower that is still under way or has left since. -/
structure Searching (size borrowers : Nat) (s : Lending) (visited : List TcpClientId)
    (fallback : Option TcpClientId) : Prop where
  none_found : fallback = none
  counted : visited.length + (s.active borrowers).card ≤ size + (s.claimed visited).card

/-- Every borrower was given the client at its cursor position, and a borrower
that holds a claimed client was given it before the one who claimed it. -/
structure Handed (size : Nat) (s : Lending) : Prop where
  passed : ∀ b cursor, (s.phase b).cursor? = some cursor → cursor < s.nextIndex
  distinct : ∀ b c cursor, (s.phase b).cursor? = some cursor →
    (s.phase c).cursor? = some cursor → b = c
  held : ∀ b client cursor, s.phase b = .holding client cursor → client = some (index size cursor)
  bound : ∀ b cursor, s.phase b = .constructed cursor →
    s.clients.alive b = some (.owner (index size cursor)) ∧
      s.clients.owner (index size cursor) = some b
  owned : ∀ t b, s.clients.owner t = some b → ∃ cursor, s.phase b = .constructed cursor ∧
    t = index size cursor
  earlier : ∀ b c client first second, s.phase b = .holding client first →
    s.phase c = .constructed second → index size first = index size second → first < second

structure Inv (size borrowers : Nat) (s : Lending) : Prop where
  member : ∀ b, s.phase b ≠ .idle → b < borrowers
  locked : ∀ b visited fallback, s.phase b = .acquiring visited fallback → s.mutex = some b
  handed : s.Handed size
  searching : ∀ b visited fallback, s.phase b = .acquiring visited fallback →
    s.Searching size borrowers visited fallback

/-! ## Clients in the hands of borrowers -/

section Handing

variable {size : Nat} {s : Lending}

theorem setPhase_phase (s : Lending) (b c : Address) (phase : Phase) :
    (s.setPhase b phase).phase c = if c = b then phase else s.phase c :=
  Function.update_apply ..

/-- A borrower without a client moves, and the cursor may advance. -/
theorem Handed.quiet (handed : s.Handed size) {b : Address} {phase : Phase} {nextIndex : Nat}
    {mutex : Option Address} (before : (s.phase b).cursor? = none) (after : phase.cursor? = none)
    (advanced : s.nextIndex ≤ nextIndex) :
    Handed size { s.setPhase b phase with nextIndex := nextIndex, mutex := mutex } := by
  have same : ∀ c, ((s.setPhase b phase).phase c).cursor? = (s.phase c).cursor? := by
    intro c
    rw [setPhase_phase]
    split
    · next here => rw [here, before, after]
    · rfl
  have kept : ∀ c cursor other, other.cursor? = some cursor →
      ((s.setPhase b phase).phase c = other ↔ s.phase c = other) := by
    intro c cursor other given
    rw [setPhase_phase]
    split
    · next here =>
        rw [here]
        constructor
        · intro moved
          rw [← moved, after] at given
          cases given
        · intro moved
          rw [← moved, before] at given
          cases given
    · exact Iff.rfl
  refine ⟨?_, ?_, ?_, ?_, ?_, ?_⟩
  · intro c cursor given
    rw [same] at given
    exact Nat.lt_of_lt_of_le (handed.passed c cursor given) advanced
  · intro c d cursor first second
    rw [same] at first second
    exact handed.distinct c d cursor first second
  · intro c client cursor holding
    exact handed.held c client cursor ((kept c cursor _ rfl).mp holding)
  · intro c cursor constructed
    exact handed.bound c cursor ((kept c cursor _ rfl).mp constructed)
  · intro t c owner
    obtain ⟨cursor, constructed, here⟩ := handed.owned t c owner
    exact ⟨cursor, (kept c cursor _ rfl).mpr constructed, here⟩
  · intro c d client first second holding constructed
    exact handed.earlier c d client first second ((kept c first _ rfl).mp holding)
      ((kept d second _ rfl).mp constructed)

/-- The client at the cursor is unclaimed and given to a borrower. -/
theorem Handed.give (handed : s.Handed size) {b : Address} {mutex : Option Address}
    (before : (s.phase b).cursor? = none) (free : s.clients.owner (index size s.nextIndex) = none) :
    Handed size { s.setPhase b (.holding (some (index size s.nextIndex)) s.nextIndex) with
      nextIndex := s.nextIndex + 1, mutex := mutex } := by
  have unbound : ∀ c cursor, s.phase c = .constructed cursor → c ≠ b := by
    rintro c cursor constructed rfl
    rw [constructed] at before
    cases before
  refine ⟨?_, ?_, ?_, ?_, ?_, ?_⟩ <;> dsimp only
  · intro c cursor
    rw [setPhase_phase]
    split
    · rintro ⟨⟩
      exact Nat.lt_succ_self _
    · intro given
      exact Nat.lt_succ_of_lt (handed.passed c cursor given)
  · intro c d cursor
    rw [setPhase_phase, setPhase_phase]
    split
    · next here =>
        rintro ⟨⟩
        split
        · next there => exact fun _ => here.trans there.symm
        · exact fun given => absurd (handed.passed d _ given) (Nat.lt_irrefl _)
    · intro first
      split
      · rintro ⟨⟩
        exact absurd (handed.passed c _ first) (Nat.lt_irrefl _)
      · exact handed.distinct c d cursor first
  · intro c client cursor
    rw [setPhase_phase]
    split
    · rintro ⟨⟩
      rfl
    · exact handed.held c client cursor
  · intro c cursor
    rw [setPhase_phase]
    split
    · nofun
    · exact handed.bound c cursor
  · intro t c owner
    obtain ⟨cursor, constructed, here⟩ := handed.owned t c owner
    refine ⟨cursor, ?_, here⟩
    rw [setPhase_phase, if_neg (unbound c cursor constructed)]
    exact constructed
  · intro c d client first second holding constructed
    rw [setPhase_phase] at holding constructed
    split at constructed
    · cases constructed
    · split at holding
      · cases holding
        intro same
        rw [same, (handed.bound d second constructed).2] at free
        cases free
      · exact handed.earlier c d client first second holding constructed

/-- A borrower in turn finds its client unclaimed. -/
theorem Handed.free (handed : s.Handed size) {b : Address} {client : Option TcpClientId}
    {cursor : Nat} (holding : s.phase b = .holding client cursor)
    (inTurn : ∀ later, cursor < later → later < s.nextIndex →
      index size later ≠ index size cursor) : s.clients.owner (index size cursor) = none := by
  cases owner : s.clients.owner (index size cursor) with
  | none => rfl
  | some c =>
      obtain ⟨second, constructed, same⟩ := handed.owned _ c owner
      have before := handed.earlier b c client cursor second holding constructed same
      have passed := handed.passed c second (congrArg Phase.cursor? constructed)
      exact absurd same.symm (inTurn second before passed)

theorem Handed.construct (handed : s.Handed size) {b : Address} {client : Option TcpClientId}
    {cursor : Nat} (holding : s.phase b = .holding client cursor)
    (inTurn : ∀ later, cursor < later → later < s.nextIndex →
      index size later ≠ index size cursor) :
    Handed size { s.setPhase b (.constructed cursor) with
      clients := s.clients.construct b client } := by
  have free := handed.free holding inTurn
  have given : (s.phase b).cursor? = some cursor := congrArg Phase.cursor? holding
  rw [handed.held b client cursor holding, Clients.construct_of_free free]
  have same : ∀ c, ((s.setPhase b (.constructed cursor)).phase c).cursor? =
      (s.phase c).cursor? := by
    intro c
    rw [setPhase_phase]
    split
    · next here => rw [here, given, Phase.cursor?]
    · rfl
  refine ⟨?_, ?_, ?_, ?_, ?_, ?_⟩ <;> dsimp only
  · intro c other known
    rw [same] at known
    exact handed.passed c other known
  · intro c d other first second
    rw [same] at first second
    exact handed.distinct c d other first second
  · intro c other position
    rw [setPhase_phase]
    split
    · nofun
    · exact handed.held c other position
  · intro c other
    rw [setPhase_phase]
    split
    · next here =>
        rintro ⟨⟩
        rw [here, Function.update_self, Function.update_self]
        exact ⟨rfl, rfl⟩
    · next elsewhere =>
        intro constructed
        obtain ⟨alive, owner⟩ := handed.bound c other constructed
        have differs : index size other ≠ index size cursor := by
          intro same
          rw [same, free] at owner
          cases owner
        rw [Function.update_of_ne elsewhere, Function.update_of_ne differs]
        exact ⟨alive, owner⟩
  · intro t c owner
    by_cases here : t = index size cursor
    · subst here
      rw [Function.update_self] at owner
      cases owner
      exact ⟨cursor, by rw [setPhase_phase, if_pos rfl], rfl⟩
    · rw [Function.update_of_ne here] at owner
      obtain ⟨other, constructed, there⟩ := handed.owned t c owner
      refine ⟨other, ?_, there⟩
      rw [setPhase_phase, if_neg ?_]
      · exact constructed
      · rintro rfl
        rw [holding] at constructed
        cases constructed
  · intro c d other first second stillHolding constructed aligned
    rw [setPhase_phase] at stillHolding constructed
    split at stillHolding
    · cases stillHolding
    · next elsewhere =>
        split at constructed
        · cases constructed
          -- the new owner was given the client last
          rcases Nat.lt_trichotomy first cursor with before | equal | after
          · exact before
          · subst equal
            have first_given := congrArg Phase.cursor? stillHolding
            exact absurd (handed.distinct c b first first_given given) elsewhere
          · have passed := handed.passed c first (congrArg Phase.cursor? stillHolding)
            exact absurd aligned (inTurn first after passed)
        · exact handed.earlier c d other first second stillHolding constructed aligned

theorem Handed.destroy (handed : s.Handed size) {b : Address} {borrower : Borrower} {cursor : Nat}
    (constructed : s.phase b = .constructed cursor)
    (alive : s.clients.alive b = some borrower) :
    Handed size { s.setPhase b .idle with clients := s.clients.destroy b borrower } := by
  obtain ⟨aliveOwner, owner⟩ := handed.bound b cursor constructed
  cases alive.symm.trans aliveOwner
  rw [Clients.destroy_of_bound rfl rfl owner]
  have known : ∀ c other, ((s.setPhase b .idle).phase c).cursor? = some other →
      (s.phase c).cursor? = some other := by
    intro c other
    rw [setPhase_phase]
    split
    · nofun
    · exact id
  refine ⟨?_, ?_, ?_, ?_, ?_, ?_⟩ <;> dsimp only
  · exact fun c other given => handed.passed c other (known c other given)
  · exact fun c d other first second =>
      handed.distinct c d other (known c other first) (known d other second)
  · intro c other position
    rw [setPhase_phase]
    split
    · nofun
    · exact handed.held c other position
  · intro c other
    rw [setPhase_phase]
    split
    · nofun
    · next elsewhere =>
        intro stays
        obtain ⟨aliveToo, ownerToo⟩ := handed.bound c other stays
        have differs : index size other ≠ index size cursor := by
          intro same
          rw [same, owner] at ownerToo
          exact elsewhere (Option.some.inj ownerToo).symm
        rw [Function.update_of_ne elsewhere, Function.update_of_ne differs]
        exact ⟨aliveToo, ownerToo⟩
  · intro t c ownerToo
    by_cases here : t = index size cursor
    · subst here
      rw [Function.update_self] at ownerToo
      cases ownerToo
    · rw [Function.update_of_ne here] at ownerToo
      obtain ⟨other, stays, there⟩ := handed.owned t c ownerToo
      refine ⟨other, ?_, there⟩
      rw [setPhase_phase, if_neg ?_]
      · exact stays
      · rintro rfl
        cases constructed.symm.trans stays
        exact here there
  · intro c d other first second holding stays
    rw [setPhase_phase] at holding stays
    split at holding
    · cases holding
    · split at stays
      · cases stays
      · exact handed.earlier c d other first second holding stays

end Handing

/-! ## Counting the borrowers under way -/

section Counting

variable {size borrowers : Nat} {s next : Lending}

theorem mem_active {b : Address} :
    b ∈ s.active borrowers ↔ b < borrowers ∧ s.phase b ≠ .idle := by
  rw [active, Finset.mem_filter, Finset.mem_range]

theorem active_setPhase {b : Address} {phase : Phase} (before : s.phase b ≠ .idle)
    (after : phase ≠ .idle) : (s.setPhase b phase).active borrowers = s.active borrowers := by
  ext c
  rw [mem_active, mem_active, setPhase_phase]
  split
  · next here => rw [here, iff_of_true after before]
  · exact Iff.rfl

theorem active_enter {b : Address} {phase : Phase} (member : b < borrowers)
    (after : phase ≠ .idle) :
    (s.setPhase b phase).active borrowers = insert b (s.active borrowers) := by
  ext c
  rw [Finset.mem_insert, mem_active, mem_active, setPhase_phase]
  split
  · next here =>
      rw [here]
      exact iff_of_true ⟨member, after⟩ (Or.inl rfl)
  · next elsewhere => exact (or_iff_right elsewhere).symm

theorem active_leave (b : Address) :
    (s.setPhase b .idle).active borrowers = (s.active borrowers).erase b := by
  ext c
  rw [Finset.mem_erase, mem_active, mem_active, setPhase_phase]
  split
  · next here => exact iff_of_false (fun both => both.2 rfl) fun both => both.1 here
  · next elsewhere => exact (and_iff_right elsewhere).symm

theorem mem_claimed {visited : List TcpClientId} {t : TcpClientId} :
    t ∈ s.claimed visited ↔ t ∈ visited ∧ s.clients.owner t ≠ none := by
  rw [claimed, Finset.mem_filter, List.mem_toFinset]

/-- Every claimed client has an owner of its own, and a borrower that still
acquires is none of them. -/
theorem Inv.claimed_lt_active (inv : s.Inv size borrowers) {b : Address}
    {seen : List TcpClientId} {fallback : Option TcpClientId}
    (acquiring : s.phase b = .acquiring seen fallback) (visited : List TcpClientId) :
    (s.claimed visited).card < (s.active borrowers).card := by
  have here : b ∈ s.active borrowers := by
    have busy : s.phase b ≠ .idle := by simp [acquiring]
    exact mem_active.mpr ⟨inv.member b busy, busy⟩
  have others : (s.claimed visited).card ≤ ((s.active borrowers).erase b).card := by
    apply Finset.card_le_card_of_injOn fun t => (s.clients.owner t).getD 0
    · intro t member
      obtain ⟨c, owner⟩ := Option.ne_none_iff_exists'.mp (mem_claimed.mp member).2
      obtain ⟨cursor, constructed, _⟩ := inv.handed.owned t c owner
      have busy : s.phase c ≠ .idle := by simp [constructed]
      have other : c ≠ b := by
        rintro rfl
        cases acquiring.symm.trans constructed
      dsimp only
      rw [owner]
      exact Finset.mem_erase.mpr ⟨other, mem_active.mpr ⟨inv.member c busy, busy⟩⟩
    · intro t first u second same
      obtain ⟨c, owner⟩ := Option.ne_none_iff_exists'.mp (mem_claimed.mp first).2
      obtain ⟨d, ownerToo⟩ := Option.ne_none_iff_exists'.mp (mem_claimed.mp second).2
      dsimp only at same
      rw [owner, ownerToo] at same
      cases same
      obtain ⟨cursor, constructed, atCursor⟩ := inv.handed.owned t c owner
      obtain ⟨also, constructedToo, atAlso⟩ := inv.handed.owned u c ownerToo
      cases constructed.symm.trans constructedToo
      exact atCursor.trans atAlso.symm
  exact Nat.lt_of_le_of_lt others (Finset.card_erase_lt_of_mem here)

/-- An `acquire` under way has not visited all clients. -/
theorem Inv.visited_lt (inv : s.Inv size borrowers) {b : Address} {visited : List TcpClientId}
    {fallback : Option TcpClientId} (acquiring : s.phase b = .acquiring visited fallback) :
    visited.length < size := by
  have counted := (inv.searching b visited fallback acquiring).counted
  have fewer := inv.claimed_lt_active acquiring visited
  omega

/-- Steps of other borrowers during an `acquire`. -/
theorem Searching.of_counts {visited : List TcpClientId} {fallback : Option TcpClientId}
    (searching : s.Searching size borrowers visited fallback)
    (counts : (next.active borrowers).card + (s.claimed visited).card ≤
      (s.active borrowers).card + (next.claimed visited).card) :
    next.Searching size borrowers visited fallback := by
  have counted := searching.counted
  exact ⟨searching.none_found, by omega⟩

/-- The client at the cursor is claimed, and the loop goes on. -/
theorem Searching.skip {visited : List TcpClientId} {fallback : Option TcpClientId}
    (searching : s.Searching size borrowers visited fallback)
    (fresh : index size s.nextIndex ∉ visited)
    (taken : s.clients.owner (index size s.nextIndex) ≠ none) {b : Address}
    (busy : s.phase b ≠ .idle) :
    Searching size borrowers
      { s.setPhase b (.acquiring (index size s.nextIndex :: visited) fallback) with
        nextIndex := s.nextIndex + 1 } (index size s.nextIndex :: visited) fallback := by
  refine ⟨searching.none_found, ?_⟩
  have counted := searching.counted
  have new : index size s.nextIndex ∉ s.claimed visited := fun member =>
    fresh (mem_claimed.mp member).1
  have more : s.claimed (index size s.nextIndex :: visited) =
      insert (index size s.nextIndex) (s.claimed visited) := by
    rw [claimed, List.toFinset_cons, Finset.filter_insert, if_pos taken]
    rfl
  have same : (s.setPhase b (.acquiring (index size s.nextIndex :: visited) fallback)).active
      borrowers = s.active borrowers := active_setPhase busy nofun
  change _ + (Lending.active borrowers (s.setPhase b _)).card ≤
    size + (s.claimed (index size s.nextIndex :: visited)).card
  rw [same, more, Finset.card_insert_of_notMem new, List.length_cons]
  omega

end Counting

/-! ## Single steps -/

section Steps

variable {size borrowers : Nat} {connected : TcpClientId → Bool} {s : Lending}

theorem inv_initial (size borrowers : Nat) : initial.Inv size borrowers where
  member _ busy := absurd rfl busy
  locked _ _ _ := nofun
  handed := ⟨fun _ _ => nofun, fun _ _ _ => nofun, fun _ _ _ => nofun, fun _ _ => nofun,
    fun _ _ => nofun, fun _ _ _ _ _ => nofun⟩
  searching _ _ _ := nofun

theorem Inv.member_setPhase (inv : s.Inv size borrowers) {b : Address} (known : b < borrowers)
    {phase : Phase} (c : Address) (busy : (s.setPhase b phase).phase c ≠ .idle) :
    c < borrowers := by
  rw [setPhase_phase] at busy
  split at busy
  · next here =>
      rw [here]
      exact known
  · exact inv.member c busy

/-- Only one borrower acquires at a time. -/
theorem Inv.not_acquiring (inv : s.Inv size borrowers) (unlocked : s.mutex = none) (b : Address)
    (visited : List TcpClientId) (fallback : Option TcpClientId) :
    s.phase b ≠ .acquiring visited fallback := by
  intro acquiring
  have locked := inv.locked b visited fallback acquiring
  rw [unlocked] at locked
  cases locked

theorem Inv.acquire (inv : s.Inv size borrowers) {b : Address} (unlocked : s.mutex = none)
    (known : b < borrowers) (idle : s.phase b = .idle) (few : (s.active borrowers).card < size) :
    Inv size borrowers { s.setPhase b (.acquiring [] none) with mutex := some b } := by
  refine ⟨inv.member_setPhase known, ?_, ?_, ?_⟩
  · intro c visited fallback
    rw [setPhase_phase]
    split
    · next here => exact fun _ => congrArg some here.symm
    · exact fun acquiring => absurd acquiring (inv.not_acquiring unlocked c visited fallback)
  · exact inv.handed.quiet (congrArg Phase.cursor? idle) rfl (Nat.le_refl _)
  · intro c visited fallback
    rw [setPhase_phase]
    split
    · rintro ⟨⟩
      refine ⟨rfl, ?_⟩
      have entered : (s.setPhase b (.acquiring [] none)).active borrowers =
          insert b (s.active borrowers) := active_enter known nofun
      have card := Finset.card_insert_le b (s.active borrowers)
      change 0 + (Lending.active borrowers (s.setPhase b _)).card ≤ _
      rw [entered]
      omega
    · exact fun acquiring => absurd acquiring (inv.not_acquiring unlocked c visited fallback)

/-- The borrower that has the mutex is the only one that acquires. -/
theorem Inv.not_acquiring_of_ne (inv : s.Inv size borrowers) {b c : Address}
    (locked : s.mutex = some b) (elsewhere : c ≠ b) (visited : List TcpClientId)
    (fallback : Option TcpClientId) : s.phase c ≠ .acquiring visited fallback := by
  intro acquiring
  have also := inv.locked c visited fallback acquiring
  rw [locked] at also
  exact elsewhere (Option.some.inj also).symm

/-- A phase other than acquiring for the borrower that has the mutex. -/
theorem Inv.locked_setPhase (inv : s.Inv size borrowers) {b : Address} {phase : Phase}
    (locked : s.mutex = some b) (other : ∀ visited fallback, phase ≠ .acquiring visited fallback)
    (c : Address) (visited : List TcpClientId) (fallback : Option TcpClientId) :
    (s.setPhase b phase).phase c ≠ .acquiring visited fallback := by
  rw [setPhase_phase]
  split
  · exact other visited fallback
  · next elsewhere => exact inv.not_acquiring_of_ne locked elsewhere visited fallback

theorem Inv.probe (inv : s.Inv size borrowers) (healthy : ∀ t < size, connected t = true)
    {b : Address} {visited : List TcpClientId} {fallback : Option TcpClientId}
    (locked : s.mutex = some b) (acquiring : s.phase b = .acquiring visited fallback)
    (fresh : index size s.nextIndex ∉ visited) :
    (s.probe size connected b visited fallback).Inv size borrowers := by
  have busy : s.phase b ≠ .idle := by simp [acquiring]
  have known := inv.member b busy
  have short := inv.visited_lt acquiring
  have given : (s.phase b).cursor? = none := congrArg Phase.cursor? acquiring
  have inside : index size s.nextIndex < size := Nat.mod_lt _ (Nat.zero_lt_of_lt short)
  unfold Lending.probe
  dsimp only
  split
  · next claimed =>
      refine ⟨inv.member_setPhase known, ?_, ?_, ?_⟩
      · intro c seen other
        change (s.setPhase b _).phase c = _ → s.mutex = some c
        rw [setPhase_phase]
        split
        · next here => exact fun _ => here ▸ locked
        · exact inv.locked c seen other
      · exact inv.handed.quiet given rfl (Nat.le_succ _)
      · intro c seen other
        change (s.setPhase b _).phase c = _ → _
        rw [setPhase_phase]
        split
        · rintro ⟨⟩
          exact (inv.searching b visited fallback acquiring).skip fresh
            (Option.isSome_iff_ne_none.mp claimed) busy
        · next elsewhere =>
            exact fun also => absurd also (inv.not_acquiring_of_ne locked elsewhere seen other)
  · next unclaimed =>
      have free : s.clients.owner (index size s.nextIndex) = none := by
        simpa [isClaimed] using unclaimed
      rw [if_pos (healthy _ inside)]
      have moved : ∀ c seen other, (s.setPhase b
          (.holding (some (index size s.nextIndex)) s.nextIndex)).phase c ≠ .acquiring seen other :=
        inv.locked_setPhase locked nofun
      refine ⟨inv.member_setPhase known, ?_, inv.handed.give given free, ?_⟩
      · exact fun c seen other also => absurd also (moved c seen other)
      · exact fun c seen other also => absurd also (moved c seen other)

/-- A step of a borrower that does not acquire. -/
theorem Inv.other (inv : s.Inv size borrowers) {b : Address} {phase : Phase} {clients : Clients}
    (busy : s.phase b ≠ .idle)
    (after : ∀ visited fallback, phase ≠ .acquiring visited fallback)
    (handed : Handed size { s.setPhase b phase with clients := clients })
    (counts : ∀ visited, ((s.setPhase b phase).active borrowers).card + (s.claimed visited).card ≤
      (s.active borrowers).card +
        (Lending.claimed { s.setPhase b phase with clients := clients } visited).card) :
    Inv size borrowers { s.setPhase b phase with clients := clients } := by
  have same : ∀ c seen other, (s.setPhase b phase).phase c = .acquiring seen other →
      s.phase c = .acquiring seen other := by
    intro c seen other
    rw [setPhase_phase]
    split
    · exact fun acquiring => absurd acquiring (after seen other)
    · exact id
  refine ⟨inv.member_setPhase (inv.member b busy), ?_, handed, ?_⟩
  · exact fun c seen other acquiring => inv.locked c seen other (same c seen other acquiring)
  · intro c seen other acquiring
    exact (inv.searching c seen other (same c seen other acquiring)).of_counts (counts seen)

theorem Inv.construct (inv : s.Inv size borrowers) {b : Address} {client : Option TcpClientId}
    {cursor : Nat} (holding : s.phase b = .holding client cursor)
    (inTurn : ∀ later, cursor < later → later < s.nextIndex →
      index size later ≠ index size cursor) :
    Inv size borrowers { s.setPhase b (.constructed cursor) with
      clients := s.clients.construct b client } := by
  have busy : s.phase b ≠ .idle := by simp [holding]
  have moved : ∀ seen fallback, Phase.constructed cursor ≠ .acquiring seen fallback :=
    fun _ _ => nofun
  apply inv.other busy moved (inv.handed.construct holding inTurn)
  intro visited
  have more : s.claimed visited ⊆ Lending.claimed { s.setPhase b (.constructed cursor) with
      clients := s.clients.construct b client } visited := by
    intro t member
    obtain ⟨seen, owner⟩ := mem_claimed.mp member
    refine mem_claimed.mpr ⟨seen, ?_⟩
    rw [inv.handed.held b client cursor holding,
      Clients.construct_of_free (inv.handed.free holding inTurn)]
    dsimp only
    rw [Function.update_apply]
    split
    · nofun
    · exact owner
  have card := Finset.card_le_card more
  have same : (s.setPhase b (.constructed cursor)).active borrowers = s.active borrowers :=
    active_setPhase busy nofun
  rw [same]
  exact Nat.add_le_add_left card _

theorem Inv.destroy (inv : s.Inv size borrowers) {b : Address} {borrower : Borrower} {cursor : Nat}
    (constructed : s.phase b = .constructed cursor)
    (alive : s.clients.alive b = some borrower) :
    Inv size borrowers { s.setPhase b .idle with clients := s.clients.destroy b borrower } := by
  have busy : s.phase b ≠ .idle := by simp [constructed]
  have moved : ∀ seen fallback, Phase.idle ≠ .acquiring seen fallback := fun _ _ => nofun
  apply inv.other busy moved (inv.handed.destroy constructed alive)
  intro visited
  obtain ⟨aliveOwner, owner⟩ := inv.handed.bound b cursor constructed
  cases alive.symm.trans aliveOwner
  have fewer : s.claimed visited ⊆ insert (index size cursor)
      (Lending.claimed { s.setPhase b .idle with
        clients := s.clients.destroy b (.owner (index size cursor)) } visited) := by
    intro t member
    obtain ⟨seen, taken⟩ := mem_claimed.mp member
    by_cases here : t = index size cursor
    · exact here ▸ Finset.mem_insert_self ..
    · refine Finset.mem_insert_of_mem (mem_claimed.mpr ⟨seen, ?_⟩)
      rw [Clients.destroy_of_bound rfl rfl owner]
      dsimp only
      rw [Function.update_of_ne here]
      exact taken
  have card := (Finset.card_le_card fewer).trans (Finset.card_insert_le _ _)
  have member : b ∈ s.active borrowers := mem_active.mpr ⟨inv.member b busy, busy⟩
  have left := Finset.card_erase_add_one member
  rw [active_leave]
  omega

theorem Inv.step (inv : s.Inv size borrowers) (healthy : ∀ t < size, connected t = true)
    {event : Event} {next : Lending} (inTurn : s.InTurn size event)
    (taken : s.step size borrowers connected event = some next) : next.Inv size borrowers := by
  cases event with
  | acquire b =>
      obtain ⟨⟨unlocked, known, idle, few⟩, moved⟩ := Option.ite_none_right_eq_some.mp taken
      cases moved
      exact inv.acquire unlocked known idle few
  | probe =>
      rw [Lending.step] at taken
      split at taken
      · cases taken
      · next b locked =>
          split at taken
          · next visited fallback acquiring =>
              obtain ⟨_, moved⟩ := Option.ite_none_right_eq_some.mp taken
              cases moved
              exact inv.probe healthy locked acquiring (inTurn b visited fallback locked acquiring)
          · cases taken
  | fallBack =>
      rw [Lending.step] at taken
      split at taken
      · cases taken
      · next b locked =>
          split at taken
          · next visited fallback acquiring =>
              rw [if_pos (inv.visited_lt acquiring)] at taken
              cases taken
          · cases taken
  | construct b =>
      rw [Lending.step] at taken
      split at taken
      · next client cursor holding =>
          cases taken
          exact inv.construct holding (inTurn client cursor holding)
      · cases taken
  | destroy b =>
      rw [Lending.step] at taken
      split at taken
      · next cursor borrower constructed alive =>
          cases taken
          exact inv.destroy constructed alive
      · cases taken

theorem Inv.succeeds (inv : s.Inv size borrowers) {event : Event} (inTurn : s.InTurn size event) :
    s.Succeeds size event := by
  cases event with
  | acquire b => trivial
  | probe => trivial
  | fallBack =>
      intro b visited fallback _ acquiring finished
      exact absurd (inv.visited_lt acquiring) (Nat.not_lt.mpr finished)
  | construct b =>
      intro client cursor holding
      refine ⟨index size cursor, inv.handed.held b client cursor holding, ?_⟩
      have free := inv.handed.free holding (inTurn client cursor holding)
      rw [tryClaim, if_pos free]
  | destroy b => trivial

end Steps

/--
In every interleaving of borrowers of an endpoint whose clients are connected,
at most `size` of them at a time, every `acquire` gives a client and every
construction claims it, as long as each borrower constructs its client before
the cursor has come round.
-/
theorem borrowers_never_collide {size borrowers : Nat} {connected : TcpClientId → Bool}
    (healthy : ∀ t < size, connected t = true) {events : List Event}
    (inTurn : Along (step size borrowers connected) (InTurn size) initial events) :
    Along (step size borrowers connected) (Succeeds size) initial events := by
  have kept : ∀ (s : Lending) event next, s.Inv size borrowers → s.InTurn size event →
      s.step size borrowers connected event = some next → next.Inv size borrowers :=
    fun _ _ _ inv inTurn taken => inv.step healthy inTurn taken
  have implied : ∀ (s : Lending) event, s.Inv size borrowers → s.InTurn size event →
      s.Succeeds size event := fun _ _ inv inTurn => inv.succeeds inTurn
  exact inTurn.imp_of_invariant kept implied (inv_initial size borrowers)

/-- Two borrowers acquire one after the other and construct in the other order. -/
def twoBorrowers : List Event :=
  [.acquire 0, .probe, .acquire 1, .probe, .construct 1, .construct 0]

theorem borrowers_never_collide_twoBorrowers :
    (run? (step 2 2 fun _ => true) initial twoBorrowers).isSome = true ∧
      Along (step 2 2 fun _ => true) (Succeeds 2) initial twoBorrowers := by
  refine ⟨rfl, borrowers_never_collide (fun _ _ => rfl) ?_⟩
  refine .cons trivial rfl (.cons ?_ rfl (.cons trivial rfl (.cons ?_ rfl
    (.cons ?_ rfl (.cons ?_ rfl trivial)))))
  · rintro b visited fallback ⟨⟩ ⟨⟩
    decide
  · rintro b visited fallback ⟨⟩ ⟨⟩
    decide
  · rintro client cursor ⟨⟩ later after before
    exact absurd (Nat.lt_of_lt_of_le before after) (Nat.lt_irrefl _)
  · rintro client cursor ⟨⟩ later after before
    have only : later = 1 := Nat.le_antisymm (Nat.le_of_lt_succ before) after
    rw [only]
    decide

/-- While the first borrower is between its `acquire` and its construction, the
second one borrows and returns a client, and borrows again. -/
def lappedBorrower : List Event :=
  [.acquire 0, .probe, .acquire 1, .probe, .construct 1, .destroy 1, .acquire 1, .probe,
    .construct 0]

/-- Both hold the first client then, and the second of them cannot claim it. -/
theorem lapped_borrower_collides :
    (run? (step 2 2 fun _ => true) initial (lappedBorrower ++ [.construct 1])).isSome = true ∧
      ¬ Along (step 2 2 fun _ => true) (Succeeds 2) initial (lappedBorrower ++ [.construct 1]) := by
  refine ⟨rfl, fun succeeds => ?_⟩
  have reached : run? (step 2 2 fun _ => true) initial lappedBorrower = some _ := rfl
  obtain ⟨t, given, claims⟩ := succeeds.good_at reached (some 0) 2 rfl
  cases given
  cases claims

end Lending

end RpcFramework.Pool
