import Mathlib.Data.List.Pairwise
import Mathlib.Order.Basic
import Mathlib.Order.Lattice

/-!
# Sorted maps read as a ring

A finite map is the list of its entries in the order of their keys.  Its
operations are described by the entries that they leave.  The search for the
first key that is not smaller than a given one starts over at the smallest key
when it runs off the end: it finds the entry that comes first when the keys are
read clockwise from the given one.
-/

structure SortedMap (κ ν : Type) [LinearOrder κ] where
  entries : List (κ × ν)
  sorted : entries.Pairwise fun first second => first.1 < second.1

namespace SortedMap

variable {κ ν : Type} [LinearOrder κ]

instance : Membership (κ × ν) (SortedMap κ ν) := ⟨fun map entry => entry ∈ map.entries⟩

def empty : SortedMap κ ν := ⟨[], List.Pairwise.nil⟩

/-! ## Operations -/

/-- Put an entry in its place, over an entry with the same key. -/
def insertEntry (key : κ) (value : ν) : List (κ × ν) → List (κ × ν)
  | [] => [(key, value)]
  | entry :: rest =>
      if key < entry.1 then (key, value) :: entry :: rest
      else if key = entry.1 then (key, value) :: rest
      else entry :: insertEntry key value rest

theorem mem_insertEntry {key : κ} {value : ν} {entries : List (κ × ν)}
    (sorted : entries.Pairwise fun first second => first.1 < second.1) {entry : κ × ν} :
    entry ∈ insertEntry key value entries ↔
      entry = (key, value) ∨ entry ∈ entries ∧ entry.1 ≠ key := by
  induction entries with
  | nil => simp [insertEntry]
  | cons head rest ih =>
      obtain ⟨behind, sorted⟩ := List.pairwise_cons.mp sorted
      unfold insertEntry
      split
      · next smaller =>
          have others : ∀ other ∈ head :: rest, other.1 ≠ key := by
            intro other member
            rcases List.mem_cons.mp member with rfl | later
            · exact smaller.ne'
            · exact (smaller.trans (behind other later)).ne'
          rw [List.mem_cons]
          exact or_congr_right (iff_self_and.mpr (others entry))
      · split
        · next same =>
            have others : ∀ other ∈ rest, other.1 ≠ key := by
              intro other member
              rw [same]
              exact (behind other member).ne'
            rw [List.mem_cons, List.mem_cons, or_and_right]
            constructor
            · rintro (new | old)
              · exact Or.inl new
              · exact Or.inr (Or.inr ⟨old, others entry old⟩)
            · rintro (new | ⟨rfl, differs⟩ | ⟨old, _⟩)
              · exact Or.inl new
              · exact absurd same.symm differs
              · exact Or.inr old
        · next differs =>
            rw [List.mem_cons, List.mem_cons, ih sorted, or_and_right]
            constructor
            · rintro (rfl | new | old)
              · exact Or.inr (Or.inl ⟨rfl, Ne.symm differs⟩)
              · exact Or.inl new
              · exact Or.inr (Or.inr old)
            · rintro (new | ⟨first, _⟩ | old)
              · exact Or.inr (Or.inl new)
              · exact Or.inl first
              · exact Or.inr (Or.inr old)

theorem sorted_insertEntry (key : κ) (value : ν) {entries : List (κ × ν)}
    (sorted : entries.Pairwise fun first second => first.1 < second.1) :
    (insertEntry key value entries).Pairwise fun first second => first.1 < second.1 := by
  induction entries with
  | nil => exact List.pairwise_singleton _ _
  | cons head rest ih =>
      obtain ⟨behind, sortedRest⟩ := List.pairwise_cons.mp sorted
      unfold insertEntry
      split
      · next smaller =>
          refine List.pairwise_cons.mpr ⟨?_, sorted⟩
          intro other member
          rcases List.mem_cons.mp member with rfl | later
          · exact smaller
          · exact smaller.trans (behind other later)
      · next notSmaller =>
          split
          · next same =>
              refine List.pairwise_cons.mpr ⟨?_, sortedRest⟩
              intro other member
              rw [same]
              exact behind other member
          · next differs =>
              refine List.pairwise_cons.mpr ⟨?_, ih sortedRest⟩
              intro other member
              rcases (mem_insertEntry sortedRest).mp member with rfl | ⟨old, _⟩
              · exact lt_of_le_of_ne (not_lt.mp notSmaller) (Ne.symm differs)
              · exact behind other old

def insert (map : SortedMap κ ν) (key : κ) (value : ν) : SortedMap κ ν :=
  ⟨insertEntry key value map.entries, sorted_insertEntry key value map.sorted⟩

def erase (map : SortedMap κ ν) (key : κ) : SortedMap κ ν :=
  ⟨map.entries.filter fun entry => decide (entry.1 ≠ key), map.sorted.filter _⟩

@[simp]
theorem not_mem_empty (entry : κ × ν) : entry ∉ (empty : SortedMap κ ν) := List.not_mem_nil

variable {map : SortedMap κ ν} {key : κ} {entry : κ × ν}

@[simp]
theorem mem_insert {value : ν} :
    entry ∈ map.insert key value ↔ entry = (key, value) ∨ entry ∈ map ∧ entry.1 ≠ key :=
  mem_insertEntry map.sorted

@[simp]
theorem mem_erase : entry ∈ map.erase key ↔ entry ∈ map ∧ entry.1 ≠ key := by
  change entry ∈ map.entries.filter _ ↔ _
  rw [List.mem_filter, decide_eq_true_iff]
  rfl

/-- A key has one value. -/
theorem eq_of_key_eq {first second : κ × ν} (one : first ∈ map) (other : second ∈ map)
    (same : first.1 = second.1) : first = second := by
  have apart : map.entries.Pairwise fun first second => first.1 ≠ second.1 :=
    map.sorted.imp fun smaller => smaller.ne
  have symmetric : Std.Symm fun first second : κ × ν => first.1 ≠ second.1 :=
    ⟨fun _ _ unequal => unequal.symm⟩
  exact Classical.byContradiction fun differs => apart.forall one other differs same

theorem mem_foldl_insert {keys : List κ} {value : ν} :
    entry ∈ keys.foldl (fun map key => map.insert key value) map ↔
      entry.2 = value ∧ entry.1 ∈ keys ∨ entry ∈ map ∧ entry.1 ∉ keys := by
  induction keys generalizing map with
  | nil => simp
  | cons key keys ih =>
      rw [List.foldl_cons, ih, mem_insert, List.mem_cons]
      by_cases here : entry.1 = key
      · subst here
        by_cases value : entry.2 = value
        · subst value
          simp [Classical.em]
        · simp [Prod.ext_iff, value]
      · simp [Prod.ext_iff, here]

theorem mem_foldl_erase {keys : List κ} :
    entry ∈ keys.foldl (fun map key => map.erase key) map ↔ entry ∈ map ∧ entry.1 ∉ keys := by
  induction keys generalizing map with
  | nil => simp
  | cons key keys ih =>
      rw [List.foldl_cons, ih, mem_erase, List.mem_cons, not_or, and_assoc]

/-! ## The next entry clockwise -/

/-- The first entry whose key is not smaller. -/
def lowerBound (map : SortedMap κ ν) (key : κ) : Option (κ × ν) :=
  map.entries.find? fun entry => decide (key ≤ entry.1)

/-- The lower bound, or the first entry behind the end. -/
def successor (map : SortedMap κ ν) (key : κ) : Option (κ × ν) :=
  (map.lowerBound key).or map.entries.head?

/-- Read clockwise from `origin`, the key `first` does not come behind `second`. -/
def Clockwise (origin first second : κ) : Prop :=
  if origin ≤ first then second < origin ∨ first ≤ second
  else second < origin ∧ first ≤ second

theorem Clockwise.antisymm {origin first second : κ} (forth : Clockwise origin first second)
    (back : Clockwise origin second first) : first = second := by
  unfold Clockwise at forth back
  by_cases ahead : origin ≤ first
  · rw [if_pos ahead] at forth
    by_cases alsoAhead : origin ≤ second
    · rw [if_pos alsoAhead] at back
      have le := forth.resolve_left (not_lt.mpr alsoAhead)
      exact le_antisymm le (back.resolve_left (not_lt.mpr ahead))
    · rw [if_neg alsoAhead] at back
      exact absurd back.1 (not_lt.mpr ahead)
  · rw [if_neg ahead] at forth
    rw [if_neg (not_le.mpr forth.1)] at back
    exact le_antisymm forth.2 back.2

theorem lowerBound_clockwise (found : map.lowerBound key = some entry) :
    entry ∈ map ∧ ∀ other ∈ map, Clockwise key entry.1 other.1 := by
  obtain ⟨ahead, passed, rest, split, smaller⟩ := List.find?_eq_some_iff_append.mp found
  have ahead : key ≤ entry.1 := of_decide_eq_true ahead
  have sorted := map.sorted
  rw [split] at sorted
  have behind := (List.pairwise_cons.mp (List.pairwise_append.mp sorted).2.1).1
  refine ⟨List.mem_of_find?_eq_some found, ?_⟩
  intro other member
  have member : other ∈ map.entries := member
  rw [Clockwise, if_pos ahead]
  rw [split, List.mem_append, List.mem_cons] at member
  rcases member with before | rfl | after
  · exact Or.inl (not_le.mp (by simpa using smaller other before))
  · exact Or.inr (le_refl _)
  · exact Or.inr (behind other after).le

theorem head?_clockwise (ended : map.lowerBound key = none)
    (first : map.entries.head? = some entry) :
    entry ∈ map ∧ ∀ other ∈ map, Clockwise key entry.1 other.1 := by
  have smaller : ∀ other ∈ map, other.1 < key := by
    intro other member
    have missed := List.find?_eq_none.mp ended other member
    exact not_le.mp fun ahead => missed (decide_eq_true ahead)
  have here : entry ∈ map := List.mem_of_head? first
  refine ⟨here, ?_⟩
  intro other member
  rw [Clockwise, if_neg (not_le.mpr (smaller entry here))]
  refine ⟨smaller other member, ?_⟩
  have sorted := map.sorted
  obtain ⟨rest, split⟩ := List.head?_eq_some_iff.mp first
  have member : other ∈ map.entries := member
  rw [split] at sorted member
  rcases List.mem_cons.mp member with rfl | after
  · exact le_refl _
  · exact ((List.pairwise_cons.mp sorted).1 other after).le

theorem successor_clockwise (found : map.successor key = some entry) :
    entry ∈ map ∧ ∀ other ∈ map, Clockwise key entry.1 other.1 := by
  unfold successor at found
  cases bound : map.lowerBound key with
  | some lower =>
      rw [bound, Option.some_or] at found
      cases found
      exact lowerBound_clockwise bound
  | none =>
      rw [bound, Option.none_or] at found
      exact head?_clockwise bound found

theorem successor_eq_none_iff : map.successor key = none ↔ map.entries = [] := by
  rw [successor, Option.or_eq_none_iff, List.head?_eq_none_iff]
  constructor
  · exact And.right
  · intro nothing
    refine ⟨?_, nothing⟩
    rw [lowerBound, nothing]
    rfl

/-- The search finds the entry that comes first clockwise. -/
theorem successor_eq_some_iff :
    map.successor key = some entry ↔
      entry ∈ map ∧ ∀ other ∈ map, Clockwise key entry.1 other.1 := by
  constructor
  · exact successor_clockwise
  · rintro ⟨member, first⟩
    cases found : map.successor key with
    | none =>
        have member : entry ∈ map.entries := member
        rw [successor_eq_none_iff.mp found] at member
        cases member
    | some other =>
        obtain ⟨otherMember, otherFirst⟩ := successor_clockwise found
        have same := (otherFirst entry member).antisymm (first other otherMember)
        rw [eq_of_key_eq otherMember member same]

/-- An entry found in a map is found in every smaller map that keeps it. -/
theorem successor_of_subset {smaller : SortedMap κ ν}
    (subset : ∀ other ∈ smaller, other ∈ map) (kept : entry ∈ smaller)
    (found : map.successor key = some entry) : smaller.successor key = some entry := by
  obtain ⟨_, first⟩ := successor_eq_some_iff.mp found
  exact successor_eq_some_iff.mpr ⟨kept, fun other member => first other (subset other member)⟩

end SortedMap
