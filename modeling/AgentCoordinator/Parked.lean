import AgentCoordinator.Library.Window
import AgentCoordinator.Scenario
import Mathlib.Order.Bounds.Basic

/-
Tasks that the revise limits hold from agents.

A parked task is an item of the human queue that says when the task is released. The item reads this
off the sorted times of the revises in the window; `revise_limit_reached` counts the revises in a
window that moves on with the time. The two agree: the item's time is the first at which the limits
are reached no more, unless there are further revises.
-/

namespace AgentCoordinator

open Tabular Window

/-! ### The human-queue item -/

/-- One parked task, as `parked_item` reports it. -/
structure ParkedItem where
  code : String
  requiredActor : String
  task : Id
  title : String
  parkReason : Option String
  reviseCount : Nat
  countedRevises24h : Nat
  agentRevises24h : Nat
  parkedAt : Time
  oldestReviseLeavesWindowAt : Time
  unparksAt : Time
  deriving DecidableEq

/-- Every agent revise in the window, oldest first. -/
def Db.revisesInWindow (s : Db) (task : Id) : List Event :=
  (s.agentRevises task).insertionSort fun e e' => e.createdAt ≤ e'.createdAt

/-- A limit that its window reaches: when it lets go, and when it was reached. -/
def limitHold (times : List Time) (limit : Nat) : Option (Time × Time) :=
  if limit ≤ times.length then
    (times[times.length - limit]?).bind fun last =>
      (times[limit - 1]?).map fun reached => (last + dayMs, reached)
  else none

/-- The times of the revises that are counted, in order. -/
def Db.countedTimes (s : Db) (task : Id) : List Time :=
  ((s.revisesInWindow task).filter fun e => !s.serialized e.record).map (·.createdAt)

/-- The times of all revises, in order. -/
def Db.allTimes (s : Db) (task : Id) : List Time := (s.revisesInWindow task).map (·.createdAt)

/-- The first revise of the limit that the item reports. -/
def Db.oldestRevise (s : Db) (task : Id) : Option Time :=
  if reviseLimit ≤ (s.countedTimes task).length then (s.countedTimes task).head?
  else (s.allTimes task).head?

/-- `parked_item`; none where the window holds no revise. -/
def Db.parkedItem (s : Db) (task : Id) (title : String) : Option ParkedItem :=
  let counted := s.countedTimes task
  let all := s.allTimes task
  let parked := limitHold counted reviseLimit
  let capped := limitHold all serializedReviseCap
  (s.oldestRevise task).map fun oldest =>
    { code := "revise_limit_reached"
      requiredActor := "human"
      task := task
      title := title
      parkReason :=
        (capped.map fun _ => "serialized_cap").or (parked.map fun _ => "subject_parked")
      reviseCount := if reviseLimit ≤ counted.length then counted.length else all.length
      countedRevises24h := counted.length
      agentRevises24h := all.length
      parkedAt := (((parked.toList ++ capped.toList).map (·.2)).min?).getD s.now
      oldestReviseLeavesWindowAt := oldest + dayMs
      unparksAt := (((parked.toList ++ capped.toList).map (·.1)).max?).getD s.now }

/-- The same history, read at another time. -/
def Db.at (s : Db) (now : Time) : Db := { s with now := now }

/-! ### The limits as time goes on -/

section Limits

variable {s : Db} {task : Id} {t : Time}

/-- Later, revises have only left the window. -/
lemma agentRevises_at (ht : s.now ≤ t) :
    (s.at t).agentRevises task =
      (s.agentRevises task).filter fun e => decide (t - dayMs < e.createdAt) := by
  simp only [Db.agentRevises, Db.at, List.filter_filter]
  refine List.filter_congr fun e _ => ?_
  by_cases hlater : t - dayMs < e.createdAt
  · have hnow : s.now - dayMs < e.createdAt := by
      have : s.now - dayMs ≤ t - dayMs := Int.sub_le_sub_right ht dayMs
      exact Int.lt_of_le_of_lt this hlater
    simp [hlater, hnow]
  · simp [hlater]

lemma sorted_revisesInWindow :
    (s.revisesInWindow task).Pairwise fun e e' => e.createdAt ≤ e'.createdAt := by
  have htotal : Std.Total fun e e' : Event => e.createdAt ≤ e'.createdAt :=
    ⟨fun e e' => Int.le_total _ _⟩
  have htrans : IsTrans Event fun e e' => e.createdAt ≤ e'.createdAt :=
    ⟨fun _ _ _ h h' => Int.le_trans h h'⟩
  exact List.pairwise_insertionSort _ _

lemma sorted_allTimes : (s.allTimes task).Pairwise (· ≤ ·) :=
  List.pairwise_map.2 sorted_revisesInWindow

lemma sorted_countedTimes : (s.countedTimes task).Pairwise (· ≤ ·) :=
  List.pairwise_map.2 (sorted_revisesInWindow.filter _)

lemma agentReviseCount_at (ht : s.now ≤ t) :
    (s.at t).agentReviseCount task = count (s.allTimes task) (t - dayMs) := by
  have hperm : (s.revisesInWindow task).Perm (s.agentRevises task) := List.perm_insertionSort _ _
  rw [Db.agentReviseCount, agentRevises_at ht, count, Db.allTimes, List.filter_map,
    List.length_map]
  exact ((hperm.filter _).length_eq).symm

lemma parkReviseCount_at (ht : s.now ≤ t) :
    (s.at t).parkReviseCount task = count (s.countedTimes task) (t - dayMs) := by
  have hperm : (s.revisesInWindow task).Perm (s.agentRevises task) := List.perm_insertionSort _ _
  rw [Db.parkReviseCount, agentRevises_at ht, count, Db.countedTimes, List.filter_map,
    List.length_map, List.filter_filter, List.filter_filter]
  refine (((hperm.filter _).length_eq).trans ?_).symm
  refine congrArg List.length (List.filter_congr fun e _ => ?_)
  rw [Bool.and_comm]
  rfl

/-- A limit is reached until it lets go. -/
lemma le_count_limitHold {times : List Time} (hsorted : times.Pairwise (· ≤ ·)) {limit : Nat}
    (hpos : 0 < limit) :
    limit ≤ count times (t - dayMs) ↔ ∃ hold ∈ limitHold times limit, t < hold.1 := by
  rcases Nat.lt_or_ge times.length limit with hshort | hlong
  · constructor
    · intro hle
      have := count_le_length times (t - dayMs)
      omega
    · rintro ⟨hold, hmem, -⟩
      rw [limitHold, if_neg (Nat.not_le.2 hshort)] at hmem
      cases hmem
  · have hi : times.length - limit < times.length := by omega
    have hj : limit - 1 < times.length := by omega
    have hhold : limitHold times limit =
        some (times[times.length - limit] + dayMs, times[limit - 1]) := by
      rw [limitHold, if_pos hlong, List.getElem?_eq_getElem hi, List.getElem?_eq_getElem hj]
      rfl
    have hcount := le_count_iff hsorted hi (t - dayMs)
    rw [Nat.sub_sub_self hlong] at hcount
    rw [hcount, hhold]
    constructor
    · intro hlt
      exact ⟨_, rfl, Int.lt_add_of_sub_right_lt hlt⟩
    · rintro ⟨hold, hmem, hlt⟩
      cases hmem
      exact Int.sub_right_lt_of_lt_add hlt

/-- When the limits let go. -/
def Db.holds (s : Db) (task : Id) : List Time :=
  ((limitHold (s.countedTimes task) reviseLimit).toList ++
    (limitHold (s.allTimes task) serializedReviseCap).toList).map (·.1)

/-- The limits are reached until the last of them lets go. -/
theorem reviseLimitReached_at (ht : s.now ≤ t) :
    (s.at t).reviseLimitReached task = true ↔ ∃ hold ∈ s.holds task, t < hold := by
  rw [Db.reviseLimitReached, parkReviseCount_at ht, agentReviseCount_at ht, Bool.or_eq_true,
    decide_eq_true_eq, decide_eq_true_eq]
  change reviseLimit ≤ _ ∨ serializedReviseCap ≤ _ ↔ _
  rw [le_count_limitHold sorted_countedTimes (by decide),
    le_count_limitHold sorted_allTimes (by decide)]
  simp only [Db.holds, List.mem_map, List.mem_append, Option.mem_toList]
  constructor
  · rintro (⟨hold, hmem, hlt⟩ | ⟨hold, hmem, hlt⟩)
    · exact ⟨_, ⟨hold, .inl hmem, rfl⟩, hlt⟩
    · exact ⟨_, ⟨hold, .inr hmem, rfl⟩, hlt⟩
  · rintro ⟨_, ⟨hold, hmem | hmem, rfl⟩, hlt⟩
    · exact .inl ⟨hold, hmem, hlt⟩
    · exact .inr ⟨hold, hmem, hlt⟩

/-- A parked task has an item, and the item names the last of the holds. -/
lemma parkedItem_of_reached (title : String) (h : s.reviseLimitReached task = true) :
    ∃ item, s.parkedItem task title = some item ∧ (s.holds task).max? = some item.unparksAt := by
  obtain ⟨hold, hmem, -⟩ := (reviseLimitReached_at (Int.le_refl s.now)).1 h
  have hmax : ∃ m, (s.holds task).max? = some m := by
    cases hm : (s.holds task).max? with
    | none =>
      rw [List.max?_eq_none_iff.1 hm] at hmem
      cases hmem
    | some m => exact ⟨m, rfl⟩
  obtain ⟨m, hm⟩ := hmax
  have holdest : ∃ oldest, s.oldestRevise task = some oldest := by
    unfold Db.oldestRevise
    split_ifs with hlimit
    · exact ⟨_, List.head?_eq_some_head (List.ne_nil_of_length_pos (by
        exact Nat.lt_of_lt_of_le (by decide) hlimit))⟩
    · -- the counted limit is not reached, so the other one is
      have hall : serializedReviseCap ≤ (s.allTimes task).length := by
        rw [Db.holds, limitHold, if_neg hlimit] at hmem
        by_contra hshort
        rw [limitHold, if_neg hshort] at hmem
        cases hmem
      exact ⟨_, List.head?_eq_some_head (List.ne_nil_of_length_pos (by
        exact Nat.lt_of_lt_of_le (by decide) hall))⟩
  obtain ⟨oldest, holdest⟩ := holdest
  refine ⟨_, Option.map_eq_some_iff.2 ⟨oldest, holdest, rfl⟩, ?_⟩
  change (s.holds task).max? = some (((s.holds task).max?).getD s.now)
  rw [hm]
  rfl

end Limits

/-- The time at which a parked task is said to be released is the first at which no limit is
reached, if there is no further revise; until then a limit is reached at every time. -/
theorem unparks_exact (s : Db) (task : Id) (title : String)
    (h : s.reviseLimitReached task = true) :
    ∃ item, s.parkedItem task title = some item ∧
      IsLeast {t | s.now ≤ t ∧ (s.at t).reviseLimitReached task = false} item.unparksAt ∧
      ∀ t, s.now ≤ t → t < item.unparksAt → (s.at t).reviseLimitReached task = true := by
  obtain ⟨item, hitem, hmax⟩ := parkedItem_of_reached title h
  obtain ⟨hmem, hle⟩ := List.max?_eq_some_iff.1 hmax
  have hreached : ∀ t, s.now ≤ t → t < item.unparksAt →
      (s.at t).reviseLimitReached task = true := fun t ht hlt =>
    (reviseLimitReached_at ht).2 ⟨_, hmem, hlt⟩
  -- the task is parked now, so its release is ahead
  have hahead : s.now < item.unparksAt := by
    obtain ⟨hold, hhold, hlt⟩ := (reviseLimitReached_at (Int.le_refl s.now)).1 h
    exact Int.lt_of_lt_of_le hlt (hle hold hhold)
  refine ⟨item, hitem, ⟨⟨Int.le_of_lt hahead, ?_⟩, ?_⟩, hreached⟩
  · rw [← Bool.not_eq_true]
    intro hstill
    obtain ⟨hold, hhold, hlt⟩ := (reviseLimitReached_at (Int.le_of_lt hahead)).1 hstill
    exact absurd hlt (Int.not_lt.2 (hle hold hhold))
  · rintro t ⟨ht, hfree⟩
    by_contra hbefore
    rw [hreached t ht (Int.not_le.1 hbefore)] at hfree
    cases hfree

namespace Scenario

/-- A submission of the first task. -/
def submission : Submission :=
  ⟨1, 1, 1, 1, .code, 1, 1, 1, none, none, none, none, none, none, none, 2, 2, 100, none, none,
    none⟩

/-- Three agent revises of the first task, the last of them just now. -/
def revised : Db :=
  { service .agent with
    submissions := table [submission]
    events := [⟨3, "submission.reopened", 1, 100⟩, ⟨3, "submission.reopened", 1, 400⟩,
      ⟨4, "submission.reopened", 1, 1000⟩] }

end Scenario

/-- Parked until the first of the three revises is a day old. -/
theorem unparks_exact_revised : ∃ item, Scenario.revised.parkedItem 1 "Task" = some item ∧
    item.unparksAt = 86400100 ∧
    IsLeast {t | Scenario.revised.now ≤ t ∧
      (Scenario.revised.at t).reviseLimitReached 1 = false} item.unparksAt := by
  obtain ⟨item, hitem, hleast, -⟩ :=
    unparks_exact Scenario.revised 1 "Task" (by decide +kernel)
  have hvalue : (Scenario.revised.parkedItem 1 "Task").map (·.unparksAt) = some 86400100 := by
    decide +kernel
  rw [hitem] at hvalue
  exact ⟨item, hitem, Option.some.inj hvalue, hleast⟩

end AgentCoordinator
