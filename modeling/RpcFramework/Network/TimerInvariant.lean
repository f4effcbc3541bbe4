import RpcFramework.Network.TimerQueue

/-!
# What holds in every state of the timers

Every task is held at one place, under the id of its registration, and the ids count the
registrations modulo 2^64.  A task that may be collected later has its flag in
`timerFlags`, unless its id has been given to another task in the meantime.
-/

namespace RpcFramework.TimerQueue

open StepRun

/-- The id of a registration. -/
def idOf (serial : Nat) : UInt64 := UInt64.ofNat (serial + 1)

theorem idOf_succ (serial : Nat) : idOf (serial + 1) = idOf serial + 1 :=
  UInt64.ofNat_add (serial + 1) 1

theorem idOf_injective {first second : Nat} (small : first < 2 ^ 64) (also : second < 2 ^ 64)
    (same : idOf first = idOf second) : first = second := by
  have values := congrArg UInt64.toNat same
  rw [idOf, idOf, UInt64.toNat_ofNat', UInt64.toNat_ofNat'] at values
  omega

/-- Every task is held once, under the id of its registration; flags and runs are those of
registrations. -/
structure WellFormed (s : TimerQueue) : Prop where
  nextId : s.nextTimerId = idOf s.registered
  entries : ∀ id serial, s.timerFlags id = some serial → serial < s.registered ∧ id = idOf serial
  ran : ∀ run ∈ s.runs, run.1 < s.registered
  known : ∀ entry ∈ s.held,
    entry.task.serial < s.registered ∧ entry.task.id = idOf entry.task.serial
  distinct : (s.held.map fun entry => entry.task.serial).Nodup

section WellFormed

variable {s next : TimerQueue} {event : Event}

theorem wellFormed_initial : WellFormed initial where
  nextId := rfl
  entries := by
    intro id serial entry
    cases entry
  ran := List.forall_mem_nil _
  known := List.forall_mem_nil _
  distinct := List.nodup_nil

theorem WellFormed.entries_step (wf : WellFormed s) (taken : step s event = some next) :
    ∀ id serial, next.timerFlags id = some serial →
      serial < next.registered ∧ id = idOf serial := by
  obtain ⟨gone, came, move, _⟩ := step_moves taken
  intro id serial entry
  rcases move.entry_before entry with old | ⟨new, rfl, more⟩
  · exact (wf.entries id serial old).imp_left fun known => known.trans_le (registered_le taken)
  · rw [more, new, wf.nextId]
    exact ⟨Nat.lt_succ_self _, rfl⟩

theorem WellFormed.ran_step (wf : WellFormed s) (taken : step s event = some next) :
    ∀ run ∈ next.runs, run.1 < next.registered := by
  obtain ⟨gone, came, move, rest, before, _⟩ := step_moves taken
  intro run member
  refine Nat.lt_of_lt_of_le ?_ (registered_le taken)
  rcases move.runs_cases with same | ⟨now, task, rfl, more⟩
  · exact wf.ran run (same ▸ member)
  · rw [more] at member
    rcases List.mem_append.mp member with old | new
    · exact wf.ran run old
    · cases List.mem_singleton.mp new
      exact (wf.known _ (before.mem_iff.mpr (List.mem_cons_self ..))).1

theorem WellFormed.known_step (wf : WellFormed s) (taken : step s event = some next) :
    ∀ entry ∈ next.held,
      entry.task.serial < next.registered ∧ entry.task.id = idOf entry.task.serial := by
  obtain ⟨gone, came, move, rest, before, behind⟩ := step_moves taken
  have known : ∀ entry ∈ gone ++ rest,
      entry.task.serial < next.registered ∧ entry.task.id = idOf entry.task.serial := by
    intro entry member
    exact (wf.known entry (before.mem_iff.mpr member)).imp_left fun known =>
      known.trans_le (registered_le taken)
  intro entry member
  rcases List.mem_append.mp (behind.mem_iff.mp member) with new | old
  · rcases move.added_or_origin with ⟨now, delay, interval, rfl, rfl, rfl⟩ | ⟨origin, _⟩
    · cases List.mem_singleton.mp new
      exact ⟨Nat.lt_succ_self _, wf.nextId⟩
    · -- the task has been taken away at another place
      obtain ⟨other, taken_away, same⟩ :=
        List.mem_map.mp (origin.subset (List.mem_map_of_mem new))
      obtain ⟨serial, id, _⟩ : other.task.serial = entry.task.serial ∧
          other.task.id = entry.task.id ∧ other.task.interval = entry.task.interval := by
        simpa only [Entry.origin, Prod.mk.injEq] using same
      rw [← serial, ← id]
      exact known other (List.mem_append_left _ taken_away)
  · exact known entry (List.mem_append_right _ old)

theorem WellFormed.distinct_step (wf : WellFormed s) (taken : step s event = some next) :
    (next.held.map fun entry => entry.task.serial).Nodup := by
  obtain ⟨gone, came, move, rest, before, behind⟩ := step_moves taken
  have distinct := (before.map fun entry => entry.task.serial).nodup_iff.mp wf.distinct
  refine (behind.map _).nodup_iff.mpr ?_
  rcases move.added_or_origin with ⟨now, delay, interval, rfl, rfl, rfl⟩ | ⟨origin, _⟩
  · refine List.nodup_cons.mpr ⟨?_, distinct⟩
    intro member
    obtain ⟨entry, old, same⟩ := List.mem_map.mp member
    exact Nat.lt_irrefl _ (same ▸ (wf.known entry (before.mem_iff.mpr old)).1)
  · have serials := origin.map Prod.fst
    rw [List.map_map, List.map_map] at serials
    rw [List.map_append] at distinct ⊢
    exact distinct.sublist (serials.append_right _)

theorem WellFormed.step (wf : WellFormed s) (taken : step s event = some next) :
    WellFormed next where
  nextId := by
    obtain ⟨gone, came, move, _⟩ := step_moves taken
    rcases move.added_or_origin with ⟨now, delay, interval, rfl, _⟩ | ⟨_, counted, nextId⟩
    · exact (congrArg (· + 1) wf.nextId).trans (idOf_succ _).symm
    · rw [nextId, counted, wf.nextId]
  entries := wf.entries_step taken
  ran := wf.ran_step taken
  known := wf.known_step taken
  distinct := wf.distinct_step taken

/-- What the steps from well-formed states keep, the runs keep. -/
theorem WellFormed.run {Inv : TimerQueue → Prop} {Good : Event → Prop}
    (kept : ∀ s event next, WellFormed s → Inv s → Good event →
      TimerQueue.step s event = some next → Inv next)
    (wf : WellFormed s) (start : Inv s) {events : List Event}
    (good : ∀ event ∈ events, Good event) {final : TimerQueue}
    (reached : run? TimerQueue.step s events = some final) : WellFormed final ∧ Inv final := by
  have both : ∀ (s : TimerQueue) event next, WellFormed s ∧ Inv s → Good event →
      TimerQueue.step s event = some next → WellFormed next ∧ Inv next := by
    intro s event next inv calm taken
    exact ⟨inv.1.step taken, kept s event next inv.1 inv.2 calm taken⟩
  exact run?_invariant_along both ⟨wf, start⟩ (.of_forall good s) reached

/-- The next registration has not been run. -/
theorem WellFormed.runsOf_new (wf : WellFormed s) : s.runsOf s.registered = [] := by
  refine List.map_eq_nil_iff.mpr (List.filter_eq_nil_iff.mpr ?_)
  intro run member
  exact fun own => Nat.ne_of_lt (wf.ran run member) (of_decide_eq_true own)

/-- What a step leaves alone is of another registration than what it takes away. -/
theorem WellFormed.serial_ne (wf : WellFormed s) {gone rest : List Entry}
    (before : s.held.Perm (gone ++ rest)) {first second : Entry} (member : first ∈ gone)
    (also : second ∈ rest) : first.task.serial ≠ second.task.serial := by
  have distinct := (before.map fun entry => entry.task.serial).nodup_iff.mp wf.distinct
  rw [List.map_append] at distinct
  intro same
  refine List.disjoint_of_nodup_append distinct (List.mem_map_of_mem member) ?_
  rw [same]
  exact List.mem_map_of_mem also

/-- Two entries of the same registration are the same. -/
theorem WellFormed.entry_eq (wf : WellFormed s) {first second : Entry} (member : first ∈ s.held)
    (also : second ∈ s.held) (same : first.task.serial = second.task.serial) : first = second :=
  List.inj_on_of_nodup_map wf.distinct member also same

/-- Only a task that waits is started. -/
theorem Move.runsOf_eq {gone came rest : List Entry} {serial : Nat}
    (move : Move s event next gone came) (before : s.held.Perm (gone ++ rest))
    (still : ∀ now task, Entry.mk (.waiting now) task ∈ s.held → task.serial ≠ serial) :
    next.runsOf serial = s.runsOf serial := by
  rcases move.runs_cases with same | ⟨now, task, rfl, more⟩
  · exact runsOf_of_runs same
  · have other := still now task (before.mem_iff.mpr (List.mem_cons_self ..))
    rw [runsOf_of_started more, if_neg other, List.append_nil]

/-- Where a step has found a task that it leaves at a place, and the starts that it adds. -/
inductive Stems (s next : TimerQueue) (serial : Nat) : Entry → Prop
  | stays {entry : Entry} (held : entry ∈ s.held)
      (runs : next.runsOf serial = s.runsOf serial) : Stems s next serial entry
  | collected (now : Int) (task : TimerTask) (stored : ⟨.stored, task⟩ ∈ s.held)
      (due : task.nextRun ≤ now) (clock : next.clock = now)
      (runs : next.runsOf serial = s.runsOf serial) (unset : s.flags task.serial = false) :
      Stems s next serial ⟨.waiting now, task⟩
  | started (now : Int) (task : TimerTask) (waiting : ⟨.waiting now, task⟩ ∈ s.held)
      (runs : next.runsOf serial = s.runsOf serial ++ [now]) : Stems s next serial ⟨.running, task⟩
  | renewed (task : TimerTask) (running : ⟨.running, task⟩ ∈ s.held) (periodic : 0 < task.interval)
      (runs : next.runsOf serial = s.runsOf serial) : Stems s next serial ⟨.stored, task.renewed⟩

theorem WellFormed.stems (wf : WellFormed s) (taken : TimerQueue.step s event = some next)
    {serial : Nat} (known : serial < s.registered) {entry : Entry} (member : entry ∈ next.held)
    (own : entry.task.serial = serial) : Stems s next serial entry := by
  obtain ⟨gone, came, move, rest, before, behind⟩ := step_moves taken
  have inside : ∀ {other}, other ∈ gone → other ∈ s.held := fun found =>
    before.mem_iff.mpr (List.mem_append_left _ found)
  have old : entry ∈ rest → next.runsOf serial = s.runsOf serial → Stems s next serial entry :=
    fun found => .stays (before.mem_iff.mpr (List.mem_append_right _ found))
  rcases List.mem_append.mp (behind.mem_iff.mp member) with new | rested
  · cases move with
    | added now delay interval same =>
        cases List.mem_singleton.mp new
        exact absurd own (Nat.ne_of_gt known)
    | cancelled id called same => cases new
    | collected now order due timerFlags flags nextTimerId registered runs clock =>
        obtain ⟨task, kept, rfl⟩ := List.mem_map.mp new
        obtain ⟨popped, alive⟩ := List.mem_filter.mp kept
        rw [Bool.not_eq_true'] at alive
        exact .collected now task (inside (List.mem_map_of_mem popped)) (due task popped) clock
          (runsOf_of_runs runs) alive
    | started now task quiet runs =>
        cases List.mem_singleton.mp new
        refine .started now task (inside (List.mem_singleton_self _)) ?_
        rw [runsOf_of_started runs, if_pos own]
    | renewed task periodic quiet runs =>
        cases List.mem_singleton.mp new
        exact .renewed task (inside (List.mem_singleton_self _)) periodic (runsOf_of_runs runs)
    | finished task once quiet runs => cases new
    | ended quiet runs => cases new
  · refine old rested ?_
    rcases move.runs_cases with same | ⟨now, task, rfl, more⟩
    · exact runsOf_of_runs same
    · -- the task that is started is of another registration
      have other := wf.serial_ne before (List.mem_singleton_self _) rested
      rw [own] at other
      rw [runsOf_of_started more, if_neg other, List.append_nil]

/-- Only a cancel with the id of the registration sets its flag. -/
theorem Move.unset_kept {gone came : List Entry} {serial : Nat} (move : Move s event next gone came)
    (wf : WellFormed s) (known : serial < s.registered) (unset : s.flags serial = false)
    (calm : event ≠ .cancelTimer (idOf serial)) : next.flags serial = false := by
  rcases move.flags_cases with ⟨now, delay, interval, rfl⟩ | ⟨id, called, rfl⟩ | same
  · exact (Function.update_of_ne (Nat.ne_of_lt known) ..).trans unset
  · apply Bool.eq_false_of_not_eq_true
    rw [cancelTimer_flags, unset]
    rintro (set | entry)
    · cases set
    · exact calm (called.trans (congrArg _ (wf.entries id serial entry).2))
  · rw [same, unset]

/-- The task may be collected later. -/
def Entry.Tracked (entry : Entry) : Prop := entry.place = .stored ∨ 0 < entry.task.interval

instance instDecidableTracked (entry : Entry) : Decidable entry.Tracked :=
  inferInstanceAs (Decidable (_ ∨ _))

/-- Every task that may be collected later has its flag in `timerFlags`. -/
def Flagged (s : TimerQueue) : Prop :=
  ∀ entry ∈ s.held, entry.Tracked → s.timerFlags entry.task.id = some entry.task.serial

/-- Entries of different registrations have different ids, as long as no id comes twice. -/
theorem WellFormed.entry_eq_of_id (wf : WellFormed s) (few : s.registered ≤ 2 ^ 64)
    {first second : Entry} (member : first ∈ s.held) (also : second ∈ s.held)
    (same : first.task.id = second.task.id) : first = second := by
  obtain ⟨small, id⟩ := wf.known first member
  obtain ⟨smaller, other⟩ := wf.known second also
  refine wf.entry_eq member also (idOf_injective (by omega) (by omega) ?_)
  rw [← id, ← other, same]

/-- No id belongs to two tasks that may be collected later. -/
def UniqueIds (s : TimerQueue) : Prop :=
  ∀ first ∈ s.held, ∀ second ∈ s.held, first.Tracked → second.Tracked →
    first.task.id = second.task.id → first = second

/-- The next id does not belong to a task that may be collected later. -/
def IdFree (s : TimerQueue) : Prop :=
  ∀ entry ∈ s.held, entry.Tracked → entry.task.id ≠ s.nextTimerId

theorem WellFormed.uniqueIds (wf : WellFormed s) (few : s.registered ≤ 2 ^ 64) : UniqueIds s := by
  intro first member second also _ _ same
  exact wf.entry_eq_of_id few member also same

theorem WellFormed.idFree (wf : WellFormed s) (few : s.registered < 2 ^ 64) : IdFree s := by
  intro entry member _ same
  obtain ⟨small, id⟩ := wf.known entry member
  rw [id, wf.nextId] at same
  exact Nat.ne_of_lt small (idOf_injective (by omega) few same)

theorem flagged_addTimer (free : IdFree s) (flagged : Flagged s) (now delay interval : Int) :
    Flagged (s.addTimer now delay interval) := by
  intro entry member tracked
  rcases List.mem_cons.mp member with rfl | old
  · exact Function.update_self ..
  · exact (Function.update_of_ne (free entry old tracked) ..).trans (flagged entry old tracked)

/-- The collection erases no entry of a task that may be collected later. -/
theorem flagged_collected (wf : WellFormed s) (unique : UniqueIds s) (flagged : Flagged s)
    {now : Int} {order : List TimerTask} {rest : List Entry}
    (before : s.held.Perm (order.map (.mk .stored) ++ rest))
    (behind : next.held.Perm
      ((order.filter fun task => !s.flags task.serial).map (.mk (.waiting now)) ++ rest))
    (timerFlags : next.timerFlags = (order.foldl (collect s.flags) (s.timerFlags, [])).1) :
    Flagged next := by
  have inside : ∀ task ∈ order, Entry.mk .stored task ∈ s.held := fun task member =>
    before.mem_iff.mpr (List.mem_append_left _ (List.mem_map_of_mem member))
  intro entry member tracked
  rw [timerFlags]
  rcases List.mem_append.mp (behind.mem_iff.mp member) with new | old
  · obtain ⟨task, kept, rfl⟩ := List.mem_map.mp new
    obtain ⟨popped, unset⟩ := List.mem_filter.mp kept
    rcases tracked with stored | periodic
    · cases stored
    · have entry := flagged _ (inside task popped) (.inl rfl)
      refine (collect_keeps order ?_).trans entry
      intro other among erased same
      -- the same id means the same task, which is neither cancelled nor a one-shot
      cases unique _ (inside other among) _ (inside task popped) (.inl rfl) (.inl rfl) same
      rcases erased with set | once
      · rw [set] at unset
        cases unset
      · exact absurd once (Int.ne_of_gt periodic)
  · have held := before.mem_iff.mpr (List.mem_append_right _ old)
    refine (collect_keeps order ?_).trans (flagged entry held tracked)
    intro other among erased same
    cases unique _ (inside other among) entry held (.inl rfl) tracked same
    exact wf.serial_ne before (List.mem_map_of_mem among) old rfl

/-- A step that keeps the map of flags keeps the property when the tasks it brings may
have been collected before. -/
theorem Flagged.of_same (flagged : Flagged s) {gone came rest : List Entry}
    (before : s.held.Perm (gone ++ rest)) (behind : next.held.Perm (came ++ rest))
    (same : next.timerFlags = s.timerFlags)
    (stems : ∀ entry ∈ came, entry.Tracked →
      ∃ other ∈ gone, 0 < other.task.interval ∧ other.task.id = entry.task.id ∧
        other.task.serial = entry.task.serial) : Flagged next := by
  intro entry member tracked
  rw [same]
  rcases List.mem_append.mp (behind.mem_iff.mp member) with new | old
  · obtain ⟨other, inside, periodic, id, serial⟩ := stems entry new tracked
    rw [← id, ← serial]
    exact flagged other (before.mem_iff.mpr (List.mem_append_left _ inside)) (.inr periodic)
  · exact flagged entry (before.mem_iff.mpr (List.mem_append_right _ old)) tracked

theorem Flagged.step (wf : WellFormed s) (unique : UniqueIds s)
    (free : next.registered ≠ s.registered → IdFree s) (flagged : Flagged s)
    (taken : step s event = some next) : Flagged next := by
  obtain ⟨gone, came, move, rest, before, behind⟩ := step_moves taken
  cases move with
  | added now delay interval same =>
      cases same
      exact flagged_addTimer (free (Nat.succ_ne_self _)) flagged now delay interval
  | cancelled id called same =>
      cases same
      exact flagged.of_same before behind (s.cancelTimer_timerFlags id) (List.forall_mem_nil _)
  | collected now order due timerFlags flags nextTimerId registered runs clock =>
      exact flagged_collected wf unique flagged before behind timerFlags
  | started now task quiet runs =>
      refine flagged.of_same before behind quiet.timerFlags (List.forall_mem_singleton.mpr ?_)
      rintro (stored | periodic)
      · cases stored
      · exact ⟨_, List.mem_singleton_self _, periodic, rfl, rfl⟩
  | renewed task periodic quiet runs =>
      refine flagged.of_same before behind quiet.timerFlags (List.forall_mem_singleton.mpr ?_)
      exact fun _ => ⟨_, List.mem_singleton_self _, periodic, rfl, rfl⟩
  | finished task once quiet runs =>
      exact flagged.of_same before behind quiet.timerFlags (List.forall_mem_nil _)
  | ended quiet runs =>
      exact flagged.of_same before behind quiet.timerFlags (List.forall_mem_nil _)

/-- `int64_t` holds the times. -/
structure Bounded (s : TimerQueue) : Prop where
  clock : s.clock < 2 ^ 63
  nextRun : ∀ task ∈ s.timers, task.nextRun < 2 ^ 63

theorem Bounded.step (bounded : Bounded s) (taken : TimerQueue.step s event = some next) :
    Bounded next := by
  cases steps_of_step taken with
  | added registers now delay interval reads =>
      exact ⟨reads.2, List.forall_mem_cons.mpr ⟨plusMs_lt .., bounded.nextRun⟩⟩
  | cancelled id =>
      rw [s.cancelTimer_eq id]
      exact ⟨bounded.clock, bounded.nextRun⟩
  | collected now order left reads drained =>
      refine ⟨reads.2, fun task kept => bounded.nextRun task ?_⟩
      exact (PriorityQueue.drain?_perm drained).mem_iff.mpr (List.mem_append_right _ kept)
  | started => exact ⟨bounded.clock, bounded.nextRun⟩
  | renewed => exact ⟨bounded.clock, List.forall_mem_cons.mpr ⟨plusMs_lt .., bounded.nextRun⟩⟩
  | finished => exact ⟨bounded.clock, bounded.nextRun⟩
  | ended => exact ⟨bounded.clock, bounded.nextRun⟩

theorem Bounded.run {events : List Event} {final : TimerQueue} (bounded : Bounded s)
    (reached : run? TimerQueue.step s events = some final) : Bounded final :=
  run?_invariant (fun _ _ _ bounded taken => bounded.step taken) bounded reached

/-- What holds in every state of a run. -/
structure Invariant (s : TimerQueue) : Prop where
  wellFormed : WellFormed s
  bounded : Bounded s
  flagged : s.registered ≤ 2 ^ 64 → Flagged s

theorem invariant_initial : Invariant initial where
  wellFormed := wellFormed_initial
  bounded := ⟨by decide, List.forall_mem_nil _⟩
  flagged := fun _ => List.forall_mem_nil _

theorem invariant_run {events : List Event}
    (reached : run? TimerQueue.step initial events = some s) : Invariant s := by
  refine run?_invariant ?_ invariant_initial reached
  intro s event next inv taken
  refine ⟨inv.wellFormed.step taken, inv.bounded.step taken, fun few => ?_⟩
  have fewer : s.registered ≤ 2 ^ 64 := (registered_le taken).trans few
  refine .step inv.wellFormed (inv.wellFormed.uniqueIds fewer) ?_ (inv.flagged fewer) taken
  intro more
  have less : s.registered < next.registered :=
    Nat.lt_of_le_of_ne (registered_le taken) (Ne.symm more)
  exact inv.wellFormed.idFree (less.trans_le few)

end WellFormed

end RpcFramework.TimerQueue
