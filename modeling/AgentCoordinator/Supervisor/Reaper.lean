import Mathlib.Data.Int.Notation
import Mathlib.Data.List.Nodup
import Mathlib.Data.List.Perm.Subperm
import Mathlib.Logic.Relation
import Mathlib.Tactic.Basic

/-
The processes that a launch leaves behind.

The descendants of the supervisor are found from the parent links of all processes, by a worklist
that is not checked for processes seen before. The links are read one process at a time, so that
they need not be those of a tree. The walk ends and is exact unless the parents of the supervisor
itself lead back to it.
-/

namespace AgentCoordinator.Reaper

open Relation

/-! ### The walk -/

/-- `libc::pid_t`. -/
abbrev Pid := ℤ

/-- The processes with some parent, in the order of the links. -/
def children (parents : List (Pid × Pid)) (parent : Pid) : List Pid :=
  (parents.filter fun link => link.2 = parent).map Prod.fst

/-- The loop of `descendants`, for a number of rounds. -/
def walk (parents : List (Pid × Pid)) : ℕ → List Pid → ℕ → Option (List Pid)
  | 0, _, _ => none
  | rounds + 1, tree, next =>
    match tree[next]? with
    | none => some tree
    | some parent => walk parents rounds (tree ++ children parents parent) (next + 1)

/-- `descendants` of the process `own`, if it ends within a number of rounds. -/
def descendants (parents : List (Pid × Pid)) (own : Pid) (rounds : ℕ) : Option (List Pid) :=
  (walk parents rounds [own] 0).map List.tail

section Walk

variable {parents : List (Pid × Pid)} {own c p : Pid} {tree result : List Pid}
  {next rounds i j : ℕ}

/-- A process has a parent. -/
def Child (parents : List (Pid × Pid)) (c p : Pid) : Prop := (c, p) ∈ parents

lemma mem_children : c ∈ children parents p ↔ Child parents c p := by
  simp [children, Child]

lemma nodup_children (h : (parents.map Prod.fst).Nodup) (p : Pid) :
    (children parents p).Nodup :=
  h.sublist (List.filter_sublist.map Prod.fst)

/-- A process is linked to one parent only. -/
lemma Child.unique {p' : Pid} (h : (parents.map Prod.fst).Nodup) (hp : Child parents c p)
    (hp' : Child parents c p') : p = p' := by
  have hinj := List.inj_on_of_nodup_map h hp hp' rfl
  exact (Prod.mk.inj hinj).2

/-! ### The invariant of the walk -/

/-- What is true of the worklist, of which the entries before `next` have been looked at. -/
structure Inv (parents : List (Pid × Pid)) (own : Pid) (tree : List Pid) (next : ℕ) : Prop where
  first : tree[0]? = some own
  next_le : next ≤ tree.length
  /-- Each entry but the first one was put behind its parent. -/
  parent : ∀ i c, 0 < i → tree[i]? = some c →
    ∃ j p, j < i ∧ j < next ∧ tree[j]? = some p ∧ Child parents c p
  closed : ∀ j p, j < next → tree[j]? = some p → ∀ c, Child parents c p → c ∈ tree.tail

lemma inv_start : Inv parents own [own] 0 where
  first := rfl
  next_le := Nat.zero_le _
  parent := by
    intro i c hi hc
    obtain ⟨i, rfl⟩ := Nat.exists_eq_succ_of_ne_zero (Nat.pos_iff_ne_zero.1 hi)
    simp at hc
  closed := fun j p hj => absurd hj (Nat.not_lt_zero j)

/-- The children of the next entry are put at the end. -/
lemma Inv.step (h : Inv parents own tree next) (hp : tree[next]? = some p) :
    Inv parents own (tree ++ children parents p) (next + 1) := by
  obtain ⟨hnext, -⟩ := List.getElem?_eq_some_iff.1 hp
  have hold : ∀ {j : ℕ} {q : Pid}, tree[j]? = some q →
      (tree ++ children parents p)[j]? = some q := by
    intro j q hq
    obtain ⟨hj, -⟩ := List.getElem?_eq_some_iff.1 hq
    rw [List.getElem?_append_left hj, hq]
  have htail : (tree ++ children parents p).tail = tree.tail ++ children parents p :=
    List.tail_append_of_ne_nil (List.length_pos_iff.1 (by omega))
  refine ⟨hold h.first, ?_, ?_, ?_⟩
  · rw [List.length_append]
    omega
  · intro i c hi hc
    rcases Nat.lt_or_ge i tree.length with hlt | hge
    · rw [List.getElem?_append_left hlt] at hc
      obtain ⟨j, q, hji, hj, hq, hchild⟩ := h.parent i c hi hc
      exact ⟨j, q, hji, by omega, hold hq, hchild⟩
    · rw [List.getElem?_append_right hge] at hc
      exact ⟨next, p, by omega, by omega, hold hp, mem_children.1 (List.mem_of_getElem? hc)⟩
  · intro j q hj hq c hc
    rw [htail]
    rcases Nat.lt_succ_iff_lt_or_eq.1 hj with hlt | rfl
    · have hlength : j < tree.length := by omega
      rw [List.getElem?_append_left hlength] at hq
      exact List.mem_append_left _ (h.closed j q hlt hq c hc)
    · rw [hold hp] at hq
      obtain rfl := Option.some.inj hq
      exact List.mem_append_right _ (mem_children.2 hc)

/-- When the walk ends, everything has been looked at. -/
lemma inv_walk (h : Inv parents own tree next)
    (hwalk : walk parents rounds tree next = some result) :
    Inv parents own result result.length := by
  induction rounds generalizing tree next with
  | zero => cases hwalk
  | succ rounds ih =>
    unfold walk at hwalk
    cases hentry : tree[next]? with
    | none =>
      rw [hentry] at hwalk
      obtain rfl := Option.some.inj hwalk
      have hlength := List.getElem?_eq_none_iff.1 hentry
      have hle := h.next_le
      rwa [Nat.le_antisymm hlength hle]
    | some p =>
      rw [hentry] at hwalk
      exact ih (h.step hentry) hwalk

/-! ### What the worklist holds -/

/-- The entries behind the first one are descendants. -/
lemma Inv.descends (h : Inv parents own tree next) (hi : 0 < i) (hc : tree[i]? = some c) :
    TransGen (Child parents) c own := by
  induction i using Nat.strongRecOn generalizing c with
  | ind i ih =>
    obtain ⟨j, p, hji, -, hp, hchild⟩ := h.parent i c hi hc
    rcases Nat.eq_zero_or_pos j with rfl | hj
    · rw [h.first] at hp
      obtain rfl := Option.some.inj hp
      exact .single hchild
    · exact .head hchild (ih j hji hj hp)

/-- Once everything has been looked at, all descendants are there. -/
lemma Inv.mem_of_descends (h : Inv parents own tree tree.length)
    (hc : TransGen (Child parents) c own) : c ∈ tree.tail := by
  have hclosed : ∀ c p, Child parents c p → p ∈ tree → c ∈ tree.tail := by
    intro c p hchild hp
    obtain ⟨j, hj⟩ := List.mem_iff_getElem?.1 hp
    obtain ⟨hlt, -⟩ := List.getElem?_eq_some_iff.1 hj
    exact h.closed j p hlt hj c hchild
  induction hc using TransGen.head_induction_on with
  | single hchild => exact hclosed _ _ hchild (List.mem_of_getElem? h.first)
  | head hchild _ ih => exact hclosed _ _ hchild (List.mem_of_mem_tail ih)

/-- No process is found twice if the supervisor is not below itself. -/
lemma Inv.step_nodup (h : Inv parents own tree next) (hnodup : tree.Nodup)
    (hdistinct : (parents.map Prod.fst).Nodup) (hself : ¬ TransGen (Child parents) own own)
    (hp : tree[next]? = some p) : (tree ++ children parents p).Nodup := by
  refine List.nodup_append'.2 ⟨hnodup, nodup_children hdistinct p, ?_⟩
  intro c hc hchild
  rw [mem_children] at hchild
  obtain ⟨i, hi⟩ := List.mem_iff_getElem?.1 hc
  rcases Nat.eq_zero_or_pos i with rfl | hpos
  · -- the supervisor would be a child of an entry
    rw [h.first] at hi
    obtain rfl := Option.some.inj hi
    rcases Nat.eq_zero_or_pos next with rfl | hnext
    · rw [h.first] at hp
      obtain rfl := Option.some.inj hp
      exact hself (.single hchild)
    · exact hself (.head hchild (h.descends hnext hp))
  · -- an entry would have been put there for two of its parents
    obtain ⟨j, q, -, hj, hq, hchild'⟩ := h.parent i c hpos hi
    obtain rfl := hchild.unique hdistinct hchild'
    obtain ⟨hlt, hget⟩ := List.getElem?_eq_some_iff.1 hq
    obtain ⟨hlt', hget'⟩ := List.getElem?_eq_some_iff.1 hp
    have heq := (hnodup.getElem_inj_iff).1 (hget.trans hget'.symm)
    omega

/-- A worklist without repetitions holds the supervisor and some of the processes. -/
lemma Inv.length_le (h : Inv parents own tree next) (hnodup : tree.Nodup) :
    tree.length ≤ parents.length + 1 := by
  have hsubset : tree ⊆ own :: parents.map Prod.fst := by
    intro c hc
    obtain ⟨i, hi⟩ := List.mem_iff_getElem?.1 hc
    rcases Nat.eq_zero_or_pos i with rfl | hpos
    · rw [h.first] at hi
      obtain rfl := Option.some.inj hi
      exact List.mem_cons_self
    · obtain ⟨j, q, -, -, -, hchild⟩ := h.parent i c hpos hi
      exact List.mem_cons_of_mem _ (List.mem_map_of_mem (f := Prod.fst) hchild)
  have hle := (hnodup.subperm hsubset).length_le
  rwa [List.length_cons, List.length_map] at hle

/-- The walk ends if the supervisor is not below itself. -/
lemma walk_ends (hdistinct : (parents.map Prod.fst).Nodup)
    (hself : ¬ TransGen (Child parents) own own) (h : Inv parents own tree next)
    (hnodup : tree.Nodup) (hrounds : parents.length + 1 < next + rounds) :
    ∃ result, walk parents rounds tree next = some result ∧ result.Nodup := by
  induction rounds generalizing tree next with
  | zero =>
    have hle := h.next_le
    have hlength := h.length_le hnodup
    omega
  | succ rounds ih =>
    unfold walk
    cases hentry : tree[next]? with
    | none => exact ⟨tree, rfl, hnodup⟩
    | some p =>
      exact ih (h.step hentry) (h.step_nodup hnodup hdistinct hself hentry) (by omega)

end Walk

/-! ### Descendants -/

/-- Some processes are the descendants of `own`, each once and behind its parent. -/
structure Exact (parents : List (Pid × Pid)) (own : Pid) (tree : List Pid) : Prop where
  mem_iff : ∀ c, c ∈ tree ↔ c ≠ own ∧ TransGen (Child parents) c own
  nodup : tree.Nodup
  parent_first : ∀ (i : ℕ) c p, tree[i]? = some c → Child parents c p →
    p = own ∨ ∃ j < i, tree[j]? = some p

section Exact

variable {parents : List (Pid × Pid)} {own : Pid}

/-- The walk ends with exactly the descendants, unless the supervisor is below itself. -/
theorem descendants_exact_iff (hdistinct : (parents.map Prod.fst).Nodup) :
    (∃ rounds tree, descendants parents own rounds = some tree ∧ Exact parents own tree) ↔
      ¬ TransGen (Child parents) own own := by
  constructor
  · rintro ⟨rounds, tree, hrun, hexact⟩ hself
    obtain ⟨result, hwalk, rfl⟩ := Option.map_eq_some_iff.1 hrun
    -- the supervisor would be put at the end
    have hmem := (inv_walk inv_start hwalk).mem_of_descends hself
    exact ((hexact.mem_iff own).1 hmem).1 rfl
  · intro hself
    have hrounds : parents.length + 1 < 0 + (parents.length + 2) := by omega
    obtain ⟨result, hwalk, hnodup⟩ :=
      walk_ends hdistinct hself inv_start (List.nodup_singleton own) hrounds
    have hinv := inv_walk inv_start hwalk
    refine ⟨parents.length + 2, result.tail, by rw [descendants, hwalk]; rfl, ?_, hnodup.tail, ?_⟩
    · intro c
      constructor
      · intro hc
        obtain ⟨i, hi⟩ := List.mem_iff_getElem?.1 hc
        rw [List.getElem?_tail] at hi
        refine ⟨?_, hinv.descends (Nat.succ_pos i) hi⟩
        rintro rfl
        obtain ⟨hlt, hget⟩ := List.getElem?_eq_some_iff.1 hi
        obtain ⟨hlt', hget'⟩ := List.getElem?_eq_some_iff.1 hinv.first
        have heq := (hnodup.getElem_inj_iff).1 (hget.trans hget'.symm)
        omega
      · exact fun hc => hinv.mem_of_descends hc.2
    · intro i c p hi hchild
      rw [List.getElem?_tail] at hi
      obtain ⟨j, q, hji, -, hq, hchild'⟩ := hinv.parent (i + 1) c (Nat.succ_pos i) hi
      obtain rfl := hchild.unique hdistinct hchild'
      rcases Nat.eq_zero_or_pos j with rfl | hj
      · rw [hinv.first] at hq
        exact .inl (Option.some.inj hq).symm
      · obtain ⟨j, rfl⟩ := Nat.exists_eq_succ_of_ne_zero (Nat.pos_iff_ne_zero.1 hj)
        exact .inr ⟨j, by omega, by rwa [List.getElem?_tail]⟩

/-- A supervisor with two children and a grandchild, beside another process. -/
theorem descendants_exact_iff_tree : ∃ rounds tree,
    descendants [(7, 4), (4, 2), (5, 2), (2, 1), (6, 1)] 2 rounds = some tree ∧
      Exact [(7, 4), (4, 2), (5, 2), (2, 1), (6, 1)] 2 tree := by
  refine (descendants_exact_iff (by decide)).2 fun hself => ?_
  obtain ⟨p, hp, hrest⟩ := TransGen.head'_iff.1 hself
  obtain rfl : p = 1 := by simpa [Child] using hp
  rcases ReflTransGen.cases_head hrest with heq | ⟨q, hq, -⟩
  · exact absurd heq (by decide)
  · simp [Child] at hq

/-- The supervisor is read while its parent runs, and the parent when it is a new child with the
old pid: the walk does not end. -/
theorem reused_parent_loops : ¬ ∀ (parents : List (Pid × Pid)) (own : Pid),
    (parents.map Prod.fst).Nodup →
    ∃ rounds tree, descendants parents own rounds = some tree ∧ Exact parents own tree := by
  intro h
  obtain ⟨rounds, tree, hrun, hexact⟩ := h [(2, 1), (1, 2)] 2 (by decide)
  obtain ⟨result, hwalk, rfl⟩ := Option.map_eq_some_iff.1 hrun
  have hself : TransGen (Child [(2, 1), (1, 2)]) 2 2 :=
    .head (b := 1) (by decide : ((2 : Pid), (1 : Pid)) ∈ [((2 : Pid), (1 : Pid)), (1, 2)])
      (.single (by decide : ((1 : Pid), (2 : Pid)) ∈ [((2 : Pid), (1 : Pid)), (1, 2)]))
  have hmem := (inv_walk inv_start hwalk).mem_of_descends hself
  exact ((hexact.mem_iff 2).1 hmem).1 rfl

end Exact

end AgentCoordinator.Reaper
