import RpcFramework.Network.TimerInvariant

/-!
# The heap and the map of flags

A registration enters its task into the heap and its flag into `timerFlags`.  The two
are updated at different moments: a collection pops the task, and erases the flag of a
one-shot or cancelled task at once, while a periodic task keeps its flag until it is back
in the heap.  Outside of the passes the map therefore holds one flag for every task of
the heap and no other, as long as no id is given to a second task.
-/

namespace RpcFramework.TimerQueue

open StepRun

/-- A registration takes an id that no task in the heap, and no periodic task in a pass, has. -/
def Fresh (s : TimerQueue) (event : Event) : Prop := event.Registers → IdFree s

/-- The ids of the tasks that may be collected later. -/
def trackedIds (entries : List Entry) : List UInt64 :=
  (entries.filter fun entry => entry.Tracked).map fun entry => entry.task.id

section Steps

variable {s next : TimerQueue} {event : Event}

/-- The registrations, and only they, are counted. -/
theorem step_registers (taken : step s event = some next) :
    (event.Registers ∧ ∃ now delay interval, 0 ≤ interval ∧ next = s.addTimer now delay interval) ∨
      ¬ event.Registers ∧ next.registered = s.registered := by
  cases steps_of_step taken with
  | added registers now delay interval reads nonneg =>
      exact .inl ⟨registers, now, delay, interval, nonneg, rfl⟩
  | cancelled target => exact .inr ⟨id, s.cancelTimer_registered target⟩
  | collected => exact .inr ⟨id, rfl⟩
  | started => exact .inr ⟨id, rfl⟩
  | renewed => exact .inr ⟨id, rfl⟩
  | finished => exact .inr ⟨id, rfl⟩
  | ended => exact .inr ⟨id, rfl⟩

/-- A registration brings an interval that is not negative. -/
theorem interval_of_added {now delay interval : Int}
    (taken : step s event = some (s.addTimer now delay interval)) : 0 ≤ interval := by
  rcases step_registers taken with ⟨_, reading, wait, period, nonneg, same⟩ | ⟨_, kept⟩
  · have tasks := congrArg TimerQueue.timers same
    simp only [addTimer, newTask, List.cons.injEq, TimerTask.mk.injEq] at tasks
    rw [tasks.1.2.2.2]
    exact nonneg
  · exact absurd kept (Nat.succ_ne_self _)

/-! ## What a collection erases -/

/-- A collected task that is cancelled or a one-shot loses its flag. -/
theorem collect_erases {flags : Nat → Bool} {order : List TimerTask}
    (collected : (UInt64 → Option Nat) × List TimerTask) {task : TimerTask}
    (member : task ∈ order) (final : flags task.serial = true ∨ task.interval = 0) :
    (order.foldl (collect flags) collected).1 task.id = none := by
  have erased : ∀ before : (UInt64 → Option Nat) × List TimerTask,
      (collect flags before task).1 task.id = none := by
    intro before
    rw [collect]
    split
    · exact Function.update_self ..
    · next unset =>
        rw [if_pos (final.resolve_left unset)]
        exact Function.update_self ..
  induction order generalizing collected with
  | nil => cases member
  | cons first order ih =>
      rw [List.foldl_cons]
      rcases List.mem_cons.mp member with rfl | later
      · -- what is erased is not entered again
        apply Option.eq_none_iff_forall_ne_some.mpr
        intro serial entry
        have kept := collect_entry order entry
        rw [erased] at kept
        cases kept
      · exact ih _ later

/-! ## Ids that are in use -/

theorem trackedIds_append (first second : List Entry) :
    trackedIds (first ++ second) = trackedIds first ++ trackedIds second := by
  rw [trackedIds, List.filter_append, List.map_append, trackedIds, trackedIds]

theorem trackedIds_perm {first second : List Entry} (perm : first.Perm second) :
    (trackedIds first).Perm (trackedIds second) := (perm.filter _).map _

theorem trackedIds_stored (tasks : List TimerTask) :
    trackedIds (tasks.map (.mk .stored)) = tasks.map TimerTask.id := by
  have all : (tasks.map (Entry.mk .stored)).filter (fun entry => entry.Tracked) =
      tasks.map (.mk .stored) := by
    apply List.filter_eq_self.mpr
    intro entry member
    obtain ⟨task, _, rfl⟩ := List.mem_map.mp member
    exact decide_eq_true (.inl rfl)
  rw [trackedIds, all, List.map_map]
  rfl

/-- A step either adds a task or brings no id into use. -/
theorem Move.ids_sublist {gone came : List Entry} (move : Move s event next gone came) :
    (∃ now delay interval, next = s.addTimer now delay interval ∧ gone = [] ∧
        came = [⟨.stored, s.newTask now delay interval⟩]) ∨
      (trackedIds came).Sublist (trackedIds gone) := by
  cases move with
  | added now delay interval same => exact .inl ⟨now, delay, interval, same, rfl, rfl⟩
  | cancelled id called same => exact .inr (.refl _)
  | collected now order due timerFlags flags nextTimerId registered runs clock =>
      refine .inr ?_
      rw [trackedIds_stored]
      refine (List.filter_sublist.map fun entry : Entry => entry.task.id).trans ?_
      rw [List.map_map]
      exact List.filter_sublist.map _
  | started now task quiet runs =>
      have same : trackedIds [⟨.running, task⟩] = trackedIds [⟨.waiting now, task⟩] := by
        by_cases periodic : 0 < task.interval
        · simp [trackedIds, Entry.Tracked, periodic]
        · simp [trackedIds, Entry.Tracked, periodic]
      exact .inr (same ▸ .refl _)
  | renewed task periodic quiet runs =>
      have same : trackedIds [⟨.stored, task.renewed⟩] = trackedIds [⟨.running, task⟩] := by
        simp [trackedIds, Entry.Tracked, TimerTask.renewed, periodic]
      exact .inr (same ▸ .refl _)
  | finished task once quiet runs => exact .inr (List.nil_sublist _)
  | ended quiet runs => exact .inr (.refl _)

/-! ## The invariant -/

/-- The map of flags and the tasks that may be collected later belong together. -/
structure Store (s : TimerQueue) : Prop where
  wellFormed : WellFormed s
  intervals : ∀ entry ∈ s.held, 0 ≤ entry.task.interval
  distinctIds : (trackedIds s.held).Nodup
  flagged : Flagged s
  owned : ∀ id serial, s.timerFlags id = some serial →
    ∃ entry ∈ s.held, entry.Tracked ∧ entry.task.serial = serial

namespace Store

theorem initial : Store initial where
  wellFormed := wellFormed_initial
  intervals := List.forall_mem_nil _
  distinctIds := List.nodup_nil
  flagged := List.forall_mem_nil _
  owned := by
    intro id serial entry
    cases entry

theorem uniqueIds (store : Store s) : UniqueIds s := by
  intro first member second also tracked likewise same
  exact List.inj_on_of_nodup_map store.distinctIds
    (List.mem_filter.mpr ⟨member, decide_eq_true tracked⟩)
    (List.mem_filter.mpr ⟨also, decide_eq_true likewise⟩) same

theorem intervals_step (store : Store s) (taken : TimerQueue.step s event = some next) :
    ∀ entry ∈ next.held, 0 ≤ entry.task.interval := by
  obtain ⟨gone, came, move, rest, before, behind⟩ := step_moves taken
  intro entry member
  rcases List.mem_append.mp (behind.mem_iff.mp member) with new | old
  · rcases move.added_or_origin with ⟨now, delay, interval, rfl, rfl, rfl⟩ | ⟨origin, _⟩
    · cases List.mem_singleton.mp new
      exact interval_of_added taken
    · obtain ⟨other, taken_away, same⟩ :=
        List.mem_map.mp (origin.subset (List.mem_map_of_mem new))
      have interval : other.task.interval = entry.task.interval :=
        congrArg (fun kept => kept.2.2) same
      rw [← interval]
      exact store.intervals other (before.mem_iff.mpr (List.mem_append_left _ taken_away))
  · exact store.intervals entry (before.mem_iff.mpr (List.mem_append_right _ old))

theorem distinctIds_step (store : Store s) (fresh : Fresh s event)
    (taken : TimerQueue.step s event = some next) : (trackedIds next.held).Nodup := by
  obtain ⟨gone, came, move, rest, before, behind⟩ := step_moves taken
  have distinct := (trackedIds_perm before).nodup_iff.mp store.distinctIds
  refine (trackedIds_perm behind).nodup_iff.mpr ?_
  rw [trackedIds_append] at distinct ⊢
  rcases move.ids_sublist with ⟨now, delay, interval, rfl, rfl, rfl⟩ | fewer
  · refine List.nodup_cons.mpr ⟨?_, distinct⟩
    intro used
    obtain ⟨entry, kept, same⟩ := List.mem_map.mp used
    obtain ⟨old, tracked⟩ := List.mem_filter.mp kept
    rcases step_registers taken with ⟨registers, _⟩ | ⟨_, unchanged⟩
    · exact fresh registers entry (before.mem_iff.mpr old) (of_decide_eq_true tracked) same
    · exact absurd unchanged (Nat.succ_ne_self _)
  · exact distinct.sublist (fewer.append_right _)

/-- A popped task whose flag stays in the map is neither cancelled nor a one-shot. -/
theorem lasts_of_flag (store : Store s) {order : List TimerTask} {task : TimerTask} {id : UInt64}
    (member : ⟨.stored, task⟩ ∈ s.held) (popped : task ∈ order)
    (flag : (order.foldl (collect s.flags) (s.timerFlags, [])).1 id = some task.serial) :
    s.flags task.serial = false ∧ 0 < task.interval := by
  have named : id = task.id := by
    rw [(store.wellFormed.entries id _ (collect_entry order flag)).2]
    exact (store.wellFormed.known _ member).2.symm
  have lasting : ¬ (s.flags task.serial = true ∨ task.interval = 0) := by
    intro final
    rw [named, collect_erases _ popped final] at flag
    cases flag
  obtain ⟨unset, repeats⟩ := not_or.mp lasting
  exact ⟨Bool.eq_false_of_not_eq_true unset,
    lt_of_le_of_ne (store.intervals _ member) (Ne.symm repeats)⟩

/-- A flag stays in the map only as long as its task may be collected later. -/
theorem owned_step (store : Store s) (taken : TimerQueue.step s event = some next) :
    ∀ id serial, next.timerFlags id = some serial →
      ∃ entry ∈ next.held, entry.Tracked ∧ entry.task.serial = serial := by
  obtain ⟨gone, came, move, rest, _, behind⟩ := step_moves taken
  intro id serial flag
  rcases move.entry_before flag with old | ⟨_, rfl, more⟩
  · obtain ⟨entry, member, tracked, own⟩ := store.owned id serial old
    have periodic : entry.place ≠ .stored → 0 < entry.task.interval := tracked.resolve_left
    cases step_fate taken member with
    | stays held => exact ⟨entry, held, tracked, own⟩
    | collected now stored kept order popped timerFlags =>
        rw [timerFlags, ← own] at flag
        obtain ⟨unset, periodic⟩ := store.lasts_of_flag (stored ▸ member) popped flag
        exact ⟨_, kept unset, .inr periodic, own⟩
    | started now waiting runs held =>
        exact ⟨_, held, .inr (periodic (waiting ▸ Place.noConfusion)), own⟩
    | finished running flags kept =>
        exact ⟨_, kept (periodic (running ▸ Place.noConfusion)), .inl rfl, own⟩
  · rcases move.added_or_origin with ⟨now, delay, interval, _, _, rfl⟩ | ⟨_, same, _⟩
    · exact ⟨_, behind.mem_iff.mpr (List.mem_cons_self ..), .inl rfl, rfl⟩
    · rw [same] at more
      exact absurd more.symm (Nat.succ_ne_self _)

theorem step (store : Store s) (fresh : Fresh s event)
    (taken : TimerQueue.step s event = some next) : Store next where
  wellFormed := store.wellFormed.step taken
  intervals := store.intervals_step taken
  distinctIds := store.distinctIds_step fresh taken
  flagged := by
    refine .step store.wellFormed store.uniqueIds ?_ store.flagged taken
    intro more
    rcases step_registers taken with ⟨registers, _⟩ | ⟨_, unchanged⟩
    · exact fresh registers
    · exact absurd unchanged more
  owned := store.owned_step taken

theorem run {events : List Event} (fresh : Along TimerQueue.step Fresh TimerQueue.initial events)
    (reached : run? TimerQueue.step TimerQueue.initial events = some s) : Store s := by
  refine run?_invariant_along ?_ .initial fresh reached
  intro s event next store fresh taken
  exact store.step fresh taken

/-! ## Outside of the passes -/

/-- Outside of the passes the map holds the flags of the tasks in the heap. -/
theorem flag_iff (store : Store s) (idle : s.passes = []) (id : UInt64) :
    (s.timerFlags id).isSome ↔ id ∈ s.timers.map TimerTask.id := by
  have held := held_idle idle
  constructor
  · intro present
    obtain ⟨serial, flag⟩ := Option.isSome_iff_exists.mp present
    obtain ⟨entry, member, _, own⟩ := store.owned id serial flag
    have named : entry.task.id = id := by
      rw [(store.wellFormed.known entry member).2, (store.wellFormed.entries id serial flag).2, own]
    rw [held] at member
    obtain ⟨task, stored, rfl⟩ := List.mem_map.mp member
    exact List.mem_map.mpr ⟨task, stored, named⟩
  · intro stored
    obtain ⟨task, member, rfl⟩ := List.mem_map.mp stored
    have inside : ⟨.stored, task⟩ ∈ s.held := List.mem_append_left _ (List.mem_map_of_mem member)
    rw [store.flagged _ inside (.inl rfl)]
    rfl

/-- No id comes twice in the heap. -/
theorem ids_nodup (store : Store s) : (s.timers.map TimerTask.id).Nodup := by
  have distinct := store.distinctIds
  rw [held, trackedIds_append, trackedIds_stored] at distinct
  exact distinct.of_append_left

end Store

end Steps

/-! ## Ids are fresh until they have come round -/

/-- The ids of the first 2^64 registrations are fresh. -/
theorem fresh_of_few {s final : TimerQueue} {events : List Event} (wf : WellFormed s)
    (reached : run? step s events = some final) (few : final.registered ≤ 2 ^ 64) :
    Along step Fresh s events := by
  induction events generalizing s with
  | nil => trivial
  | cons event rest ih =>
      obtain ⟨next, taken, tail⟩ := run?_cons_eq_some.mp reached
      refine .cons ?_ taken (ih (wf.step taken) tail)
      intro registers
      rcases step_registers taken with ⟨_, now, delay, interval, _, rfl⟩ | ⟨other, _⟩
      · have counted : s.registered + 1 ≤ final.registered := registered_le_run tail
        exact wf.idFree (counted.trans few)
      · exact absurd registers other

end RpcFramework.TimerQueue
